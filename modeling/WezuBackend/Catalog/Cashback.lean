import WezuBackend.Catalog.Stock
import WezuBackend.Wallet.Effects

/-!
# The cashback of a catalog order

`confirm_order` credits five percent of the order to its user's wallet.  The credit carries no
reference to the order but its number in the description, and `confirm_order` does not look at the
status: a second confirmation credits again, also one of a cancelled order.

`Rewarded` is what keeps the credits apart: an order number with a cashback belongs to an order that
is not pending any more.  So no order is rewarded twice, and none that is cancelled, in the runs
whose rewarded confirmations find their order pending (`rewarded_once`).
-/

namespace WezuBackend.Catalog.Cashback

open Lib.Tables Lib.Runs
open Lib.Atomicity Lib.Atomicity.Tx
open Catalog.Orders
open Catalog.Stock (commitUnless_ok commitUnless_error throughout_commitUnless
  throughout_createDeliveryTracking throughout_afterConfirmation mem_rewriteOrder)

def IsCashback (number : String) (txn : Financial.Model.Transaction) : Prop :=
  txn.category = some "cashback" ∧ txn.description = some (cashbackReason number)

instance (number : String) (txn : Financial.Model.Transaction) :
    Decidable (IsCashback number txn) := by
  unfold IsCashback
  infer_instance

/-- How often the order was rewarded. -/
def cashbacks (number : String) (db : Db) : ℤ :=
  db.wallet.transactions.sum fun txn => if IsCashback number txn then 1 else 0

/-- No number is rewarded twice, and only those of orders that are not pending. -/
structure Rewarded (db : Db) : Prop where
  unique : ∀ o ∈ db.orders, ∀ o' ∈ db.orders, o.orderNumber = o'.orderNumber → o = o'
  once : ∀ number, cashbacks number db ≤ 1
  claimed : ∀ number, 0 < cashbacks number db →
    ∃ o ∈ db.orders, o.orderNumber = number ∧ o.status ≠ .pending

/-- A confirmation whose writes go through finds its order pending. -/
def Guarded (db : Db) : Action → Prop
  | .confirm _ orderId _ _ fails =>
    fails.status = false → fails.cashback = false → ∀ o ∈ db.orders, o.id = orderId →
      o.status = .pending
  | _ => True

def Confirms (orderId : ℕ) : Action → Prop
  | .confirm _ k _ _ _ => k = orderId
  | _ => False

/-! ## The credit -/

theorem cashbackReason_injective {a b : String} (h : cashbackReason a = cashbackReason b) :
    a = b := by
  have hlist := congrArg String.toList h
  unfold cashbackReason at hlist
  rw [String.toList_append, String.toList_append] at hlist
  exact String.toList_inj.mp (List.append_cancel_left hlist)

theorem fixes_getWallet (userId : ℕ) :
    Fixes Financial.Model.Db.transactions (Wallet.Service.getWallet userId) := by
  refine readOnly_look.fixes.bind fun db => ?_
  rcases db.wallets.find? fun w => w.userId = userId with _ | w
  · refine (readOnly_demand _ _).fixes.bind fun _ => Fixes.bind ?_ fun _ => (readOnly_pure _).fixes
    exact readOnly_look.fixes.bind fun _ => Fixes.bind (fixes_update fun _ => rfl) fun _ =>
      (readOnly_pure _).fixes
  · exact (readOnly_pure _).fixes

theorem spares_addBalance {u a d g c rt ri} :
    Spares OfDatabase Financial.Model.Db.transactions
      (Wallet.Service.addBalance u a d g c rt ri) := by
  refine spares_bind (readOnly_lift _).fixes fun v =>
    spares_bind (readOnly_ensure _ _).fixes fun _ => ?_
  refine spares_bind (fixes_getWallet _) fun w => spares_bind (readOnly_lift _).fixes fun b => ?_
  refine spares_bind (fixes_update fun _ => rfl) fun _ =>
    spares_bind (readOnly_lift _).fixes fun b' => ?_
  -- the row is in the session; only its commit can raise
  intro s e t h
  rcases bind_error.mp h with h | ⟨_, s₁, hrow, h⟩
  · cases h
  obtain ⟨-, rfl⟩ := Wallet.Operations.addTransaction_ok.mp hrow
  rcases bind_error.mp h with h | ⟨_, _, -, h⟩
  · obtain ⟨rfl, rfl⟩ := Wallet.Operations.commitLedger_error h
    exact ⟨rfl, fun hnot => absurd (.inr rfl) hnot⟩
  · cases h

theorem addBalance_posted {u a d g c rt ri w} {wallet : Financial.Model.Db}
    {t : Session Financial.Model.Db}
    (h : Wallet.Service.addBalance u a d g c rt ri (.fresh wallet) = (.ok w, t)) :
    ∃ v x db₁, Wallet.Operations.Opened wallet u x db₁ ∧
      t = .fresh (Wallet.Operations.posted db₁ x v .credit c .success d rt ri g) := by
  simp only [Wallet.Service.addBalance, bind_ok, Wallet.Operations.money_ok,
    Wallet.Operations.stored_ok, ensure_ok, Wallet.Operations.saveWallet_ok,
    Wallet.Operations.addTransaction_ok, Wallet.Operations.commitLedger_ok, pure_ok] at h
  obtain ⟨v, _, ⟨-, rfl⟩, _, _, ⟨-, rfl⟩, x, s, hx, _, _, ⟨⟨-, rfl⟩, rfl⟩, h⟩ := h
  obtain ⟨_, _, rfl, _, _, ⟨⟨-, rfl⟩, rfl⟩, _, _, ⟨-, rfl⟩, _, _, ⟨-, rfl⟩, -, rfl⟩ := h
  exact ⟨v, x, _, (Wallet.Operations.getWallet_ok hx).2, rfl⟩

/-- **The cashback of an order**: it raises and posts nothing, or posts one row of this order. -/
theorem applyCashback_cases (order : CatalogOrder) (db : Db) :
    (∃ e t, applyCashback order (.fresh db) = (.error e, t) ∧ t.committed = db ∧
      (¬ OfDatabase e → ∃ wallet, t.working = { db with wallet } ∧
        wallet.transactions = db.wallet.transactions)) ∨
    ∃ wallet, applyCashback order (.fresh db) = (.ok (), .fresh { db with wallet }) ∧
      ∀ number, cashbacks number { db with wallet } =
        cashbacks number db + if number = order.orderNumber then 1 else 0 := by
  rcases hrun : Wallet.Service.addBalance order.userId (cashbackAmount order)
    (cashbackReason order.orderNumber) none "cashback" none none (.fresh db.wallet) with ⟨e | w, t⟩
  · obtain ⟨hcommitted, hworking⟩ := spares_addBalance _ e t hrun
    have hfocus := focus_eq Db.wallet (fun wallet db => { db with wallet })
      (s := .fresh db) hrun
    refine .inl ⟨e, _, bind_of_error hfocus, ?_, fun he => ⟨t.working, rfl, hworking he⟩⟩
    rw [hcommitted]
    rfl
  · obtain ⟨v, x, db₁, hopen, rfl⟩ := addBalance_posted hrun
    have hfocus := focus_eq Db.wallet (fun wallet db => { db with wallet })
      (s := .fresh db) hrun
    refine .inr ⟨_, (bind_of_ok hfocus).trans rfl, fun number => ?_⟩
    unfold cashbacks
    refine (Wallet.Operations.sum_posted _).trans ?_
    rw [hopen.transactions]
    refine congrArg (_ + ·) (if_congr ?_ rfl rfl)
    constructor
    · rintro ⟨-, hreason⟩
      exact (cashbackReason_injective (Option.some.inj hreason)).symm
    · rintro rfl
      exact ⟨rfl, rfl⟩

/-! ## What keeps `Rewarded` -/

theorem Rewarded.of_eq {db db' : Db} (h : Rewarded db) (horders : db'.orders = db.orders)
    (htxns : db'.wallet.transactions = db.wallet.transactions) : Rewarded db' := by
  have hcount : ∀ number, cashbacks number db' = cashbacks number db := fun number => by
    unfold cashbacks
    rw [htxns]
  refine ⟨?_, fun number => ?_, fun number hpos => ?_⟩
  · rw [horders]
    exact h.unique
  · rw [hcount]
    exact h.once number
  · rw [hcount] at hpos
    rw [horders]
    exact h.claimed number hpos

variable {db : Db}

theorem Rewarded.withOrder (h : Rewarded db) {request : OrderRequest}
    (lines : List ItemData)
    (hnew : ∀ o ∈ db.orders, o.orderNumber ≠ request.orderNumber) :
    Rewarded (withOrder request lines db) := by
  refine ⟨fun o ho o' ho' hnumber => ?_, h.once, fun number hpos => ?_⟩
  · rcases (Table.mem_add_mk (key_newOrder request lines)).mp ho with ho | rfl <;>
      rcases (Table.mem_add_mk (key_newOrder request lines)).mp ho' with ho' | rfl
    · exact h.unique o ho o' ho' hnumber
    · exact absurd hnumber (hnew o ho)
    · exact absurd hnumber.symm (hnew o' ho')
    · rfl
  · obtain ⟨o, ho, hnumber, hstatus⟩ := h.claimed number hpos
    exact ⟨o, (Table.mem_add_mk (key_newOrder request lines)).mpr (.inl ho), hnumber, hstatus⟩

theorem Rewarded.rewriteOrder (h : Rewarded db) {orderId : ℕ}
    {f : CatalogOrder → CatalogOrder} {hf : ∀ o, Row.key (f o) = Row.key o}
    (hnumber : ∀ o, (f o).orderNumber = o.orderNumber) (hstatus : ∀ o, (f o).status ≠ .pending) :
    Rewarded (rewriteOrder orderId f hf db) := by
  have hsame : ∀ o : CatalogOrder,
      (if o.id = orderId then f o else o).orderNumber = o.orderNumber := fun o => by
    split_ifs
    · exact hnumber o
    · rfl
  refine ⟨fun x hx x' hx' hxx => ?_, h.once, fun number hpos => ?_⟩
  · obtain ⟨o, ho, rfl⟩ := mem_rewriteOrder.mp hx
    obtain ⟨o', ho', rfl⟩ := mem_rewriteOrder.mp hx'
    rw [hsame, hsame] at hxx
    rw [h.unique o ho o' ho' hxx]
  · obtain ⟨o, ho, rfl, hpending⟩ := h.claimed number hpos
    refine ⟨_, mem_rewriteOrder.mpr ⟨o, ho, rfl⟩, hsame o, ?_⟩
    split_ifs
    · exact hstatus o
    · exact hpending

theorem rewarded_addStock (key : StockKey) (n : ℤ) (db : Db) (h : Rewarded db) :
    Rewarded (addStock key n db) := by
  cases key <;> exact h.of_eq rfl rfl

theorem throughout_reserveStock (key : StockKey) (quantity : ℕ) (fails : Bool) :
    Throughout Rewarded (reserveStock key quantity fails) := by
  refine Throughout.handle (readOnly_look.throughout.bind fun db => ?_) fun _ =>
    throughout_rollback.bind fun _ => (readOnly_pure false).throughout
  split_ifs
  · exact (throughout_update (rewarded_addStock _ _)).bind fun _ =>
      (throughout_commitUnless _).bind fun _ => (readOnly_pure true).throughout
  · exact (readOnly_pure false).throughout

theorem throughout_reserveLines (orderId : ℕ) (lines : List ItemData) (fails : Failures) :
    Throughout Rewarded (reserveLines orderId lines fails) := by
  induction lines generalizing fails with
  | nil => exact (readOnly_pure ()).throughout
  | cons line lines ih =>
    exact (throughout_update fun _ h => h.of_eq rfl rfl).bind fun _ =>
      (throughout_reserveStock _ _ _).bind fun _ => ih fails.tail

theorem throughout_releaseLines (items : List CatalogOrderItem) (fails : Failures) :
    Throughout Rewarded (releaseLines items fails) := by
  induction items generalizing fails with
  | nil => exact (readOnly_pure ()).throughout
  | cons i items ih =>
    refine (Throughout.handle ?_ fun _ => throughout_rollback).bind fun _ => ih fails.tail
    exact (throughout_update (rewarded_addStock _ _)).bind fun _ => throughout_commitUnless _

theorem createOrder_rewarded (h : Rewarded db) (request : OrderRequest) :
    Rewarded ((createOrder request).call db).2 := by
  have hplace : Rewarded (placeOrder request (.fresh db)).2.committed ∧
      Rewarded (placeOrder request (.fresh db)).2.working := by
    unfold placeOrder
    rw [look_bind, Session.working_fresh]
    rcases hlines : request.items.mapM (priceLine db) with e | lines
    · rw [lift_bind_error rfl]
      exact ⟨h, h⟩
    · rw [lift_bind rfl]
      by_cases hflush : request.flushFails = false ∧
        ∀ o ∈ db.orders, o.orderNumber ≠ request.orderNumber
      · rw [ensure_bind hflush, update_bind]
        refine ((throughout_reserveLines _ _ _).bind fun _ => (throughout_commitUnless _).bind
          fun _ => readOnly_look.throughout.bind fun _ => (readOnly_demand _ _).throughout) _ h ?_
        exact h.withOrder lines hflush.2
      · rw [ensure_bind_not hflush]
        exact ⟨h, h⟩
  rw [createOrder_call]
  exact hplace.1

theorem cancelOrder_rewarded (h : Rewarded db) (now orderId : ℕ) (reason : String)
    (fails : Failures) : Rewarded ((cancelOrder now orderId reason fails).call db).2 := by
  refine Throughout.call (Throughout.handle (readOnly_look.throughout.bind fun db => ?_) fun _ =>
    throughout_rollback.bind fun _ => (readOnly_pure false).throughout) h
  split
  · exact (readOnly_pure false).throughout
  · refine (readOnly_ensure _ _).throughout.bind fun _ =>
      (throughout_releaseLines _ _).bind fun _ => ?_
    refine (throughout_update fun db hdb => ?_).bind fun _ => (throughout_commitUnless _).bind
      fun _ => (readOnly_pure true).throughout
    exact hdb.rewriteOrder (fun _ => rfl) fun _ => by simp [asCancelled]

/-! ## Confirmation -/

/-- The order that was confirmed, before its cashback. -/
def confirmed (now orderId : ℕ) (paymentId : String) (db : Db) : Db :=
  rewriteOrder orderId (asConfirmed now paymentId) (key_asConfirmed now paymentId) db

variable {order : CatalogOrder}

theorem Rewarded.unclaimed (h : Rewarded db) (ho : order ∈ db.orders)
    (hpending : order.status = .pending) : cashbacks order.orderNumber db ≤ 0 := by
  by_contra hpos
  obtain ⟨o, ho', hnumber, hstatus⟩ := h.claimed order.orderNumber (by omega)
  rw [h.unique o ho' order ho hnumber] at hstatus
  exact hstatus hpending

theorem Rewarded.credit {db db' : Db} (h : Rewarded db) (horders : db'.orders = db.orders)
    (hsome : ∃ o ∈ db.orders, o.orderNumber = order.orderNumber ∧
      o.status ≠ .pending)
    (hnone : cashbacks order.orderNumber db ≤ 0)
    (hcount : ∀ number, cashbacks number db' =
      cashbacks number db + if number = order.orderNumber then 1 else 0) : Rewarded db' := by
  refine ⟨?_, fun number => ?_, fun number hpos => ?_⟩
  · rw [horders]
    exact h.unique
  · rw [hcount]
    split_ifs with hnumber
    · rw [hnumber]
      omega
    · have := h.once number
      omega
  · rw [horders]
    rw [hcount] at hpos
    split_ifs at hpos with hnumber
    · rw [hnumber]
      exact hsome
    · exact h.claimed number (by omega)

theorem throughout_tracking (orderId : ℕ) (trackingNumber : String) (fails : ConfirmFailures) :
    Throughout Rewarded (createDeliveryTracking orderId trackingNumber fails) :=
  throughout_createDeliveryTracking (fun _ _ _ h => h.of_eq rfl rfl) orderId trackingNumber fails

variable {now : ℕ}

theorem afterConfirmation_rewarded (h : Rewarded db) {paymentId : String}
    (ho : order ∈ db.orders) (trackingNumber : String)
    (fails : ConfirmFailures) (hguard : fails.cashback = false → order.status = .pending) :
    Rewarded (afterConfirmation order trackingNumber fails
      (.fresh (confirmed now order.id paymentId db))).2.committed := by
  have hconfirmed : Rewarded (confirmed now order.id paymentId db) :=
    h.rewriteOrder (fun _ => rfl) fun _ => by simp [asConfirmed]
  unfold afterConfirmation
  split_ifs with hfails
  · exact hconfirmed
  · have hunclaimed := h.unclaimed ho (hguard (by simpa using hfails))
    rcases applyCashback_cases order (confirmed now order.id paymentId db) with
      ⟨e, t, hrun, hcommitted, hworking⟩ | ⟨wallet, hrun, hcount⟩
    · have hlogged : handle (applyCashback order >>= fun _ => pure true)
          (fun e => pure (¬ OfDatabase e : Bool)) (.fresh (confirmed now order.id paymentId db)) =
          (.ok (¬ OfDatabase e : Bool), t) := handle_of_error (bind_of_error hrun)
      rw [bind_of_ok hlogged]
      rw [← hcommitted] at hconfirmed
      split_ifs with husable
      · obtain ⟨wallet, hworking, htxns⟩ := hworking (by simpa using husable)
        refine (throughout_tracking _ _ _ t hconfirmed ?_).1
        rw [hworking, ← hcommitted]
        exact hconfirmed.of_eq rfl (htxns.trans (by rw [hcommitted]))
      · exact hconfirmed
    · have hlogged : handle (applyCashback order >>= fun _ => pure true)
          (fun e => pure (¬ OfDatabase e : Bool)) (.fresh (confirmed now order.id paymentId db)) =
          (.ok true, .fresh { confirmed now order.id paymentId db with wallet }) :=
        handle_of_ok ((bind_of_ok hrun).trans rfl)
      rw [bind_of_ok hlogged]
      have hcredit : Rewarded { confirmed now order.id paymentId db with wallet } := by
        refine hconfirmed.credit rfl ⟨_, mem_rewriteOrder.mpr ⟨order, ho, if_pos rfl⟩, rfl, ?_⟩
          hunclaimed hcount
        simp [asConfirmed]
      exact (throughout_tracking _ _ _ _ hcredit hcredit).1

theorem confirmOrder_call (db : Db) (now orderId : ℕ) (paymentId trackingNumber : String)
    (fails : ConfirmFailures) :
    ((confirmOrder now orderId paymentId trackingNumber fails).call db).2 = db ∨
    ∃ order ∈ db.orders, order.id = orderId ∧ fails.status = false ∧
      ((confirmOrder now orderId paymentId trackingNumber fails).call db).2 =
        (afterConfirmation order trackingNumber fails
          (.fresh (confirmed now order.id paymentId db))).2.committed := by
  unfold Tx.call confirmOrder handle
  rw [look_bind, Session.working_fresh]
  rcases hget : db.orders.get? orderId with _ | order
  · exact .inl rfl
  · obtain ⟨ho, hid⟩ := Table.get?_eq_some.mp hget
    have hkey : order.id = orderId := hid
    subst hkey
    dsimp only
    rw [update_bind, Session.committed_fresh, Session.working_fresh]
    by_cases hcommit : fails.status = false ∧ Linked (confirmed now order.id paymentId db)
    · refine .inr ⟨order, ho, rfl, hcommit.1, ?_⟩
      have hcommitted : commitUnless fails.status ⟨db, confirmed now order.id paymentId db⟩ =
          (.ok (), .fresh (confirmed now order.id paymentId db)) :=
            commitUnless_ok hcommit.1 hcommit.2
      unfold confirmed at hcommitted ⊢
      rw [bind_of_ok hcommitted]
      rcases hrun : afterConfirmation order trackingNumber fails (.fresh (rewriteOrder order.id
        (asConfirmed now paymentId) (key_asConfirmed now paymentId) db)) with ⟨e | u, t⟩
      · rw [bind_of_error hrun]
        rfl
      · rw [bind_of_ok hrun]
        rfl
    · rw [bind_of_error (commitUnless_error hcommit)]
      exact .inl rfl

variable {fails : ConfirmFailures} {paymentId trackingNumber : String}

theorem confirmOrder_rewarded (h : Rewarded db) {now orderId : ℕ}
    (hguard : Guarded db (.confirm now orderId paymentId trackingNumber fails)) :
    Rewarded ((confirmOrder now orderId paymentId trackingNumber fails).call db).2 := by
  rcases confirmOrder_call db now orderId paymentId trackingNumber fails with
    hsame | ⟨order, ho, hid, hstatus, hcall⟩
  · rw [hsame]
    exact h
  · rw [hcall]
    exact afterConfirmation_rewarded h ho trackingNumber fails fun hcashback =>
      hguard hstatus hcashback order ho hid

theorem confirmOrder_unrewarded (ho : order ∈ db.orders)
    (hguard : Guarded db (.confirm now order.id paymentId trackingNumber fails))
    (hstatus : order.status ≠ .pending) :
    ((confirmOrder now order.id paymentId trackingNumber fails).call db).2.wallet = db.wallet := by
  rcases confirmOrder_call db now order.id paymentId trackingNumber fails with
    hsame | ⟨order', -, -, hcommit, hcall⟩
  · rw [hsame]
  · rw [hcall]
    have hfails : fails.cashback = true := by
      by_contra hcashback
      exact hstatus (hguard hcommit (by simpa using hcashback) order ho rfl)
    unfold afterConfirmation
    rw [if_pos hfails]
    rfl

/-! ## Runs -/

theorem step_rewarded (db : Db) (action : Action) (h : Rewarded db) (hguard : Guarded db action) :
    Rewarded (step db action) := by
  cases action with
  | create request => exact createOrder_rewarded h request
  | confirm now orderId paymentId trackingNumber fails => exact confirmOrder_rewarded h hguard
  | cancel now orderId reason fails => exact cancelOrder_rewarded h now orderId reason fails

/-- No order of the run is rewarded twice, and no confirmation rewards a cancelled order. -/
def RewardedOnce (db : Db) (actions : List Action) : Prop :=
  (∀ p q, actions = p ++ q →
    ∀ o ∈ (run step db p).orders, cashbacks o.orderNumber (run step db p) ≤ 1) ∧
  ∀ p action q, actions = p ++ action :: q →
    ∀ o ∈ (run step db p).orders, Confirms o.id action → o.status = .cancelled →
      cashbacks o.orderNumber (run step db (p ++ [action])) =
        cashbacks o.orderNumber (run step db p)

/-- **An order is rewarded at most once**, and not after its cancellation, in every run whose
confirmations that go through find their order pending. -/
theorem rewarded_once {db : Db} (h : Rewarded db) {actions : List Action}
    (hguard : Along step Guarded db actions) : RewardedOnce db actions := by
  constructor
  · rintro p q rfl o -
    exact (run_invariant_of_along step_rewarded h (along_append.mp hguard).1).once o.orderNumber
  · rintro p action q rfl o ho hconfirms hcancelled
    have hstep : Guarded (run step db p) action := (along_append.mp hguard).2.1
    have hwallet : (step (run step db p) action).wallet = (run step db p).wallet := by
      cases action with
      | confirm now orderId paymentId trackingNumber fails =>
        obtain rfl : orderId = o.id := hconfirms
        exact confirmOrder_unrewarded ho hstep (by simp [hcancelled])
      | create request => cases hconfirms
      | cancel now orderId reason fails => cases hconfirms
    unfold cashbacks
    rw [run_concat, hwallet]

/-- A pending order over 168 of user 7, whose wallet is empty. -/
def shop : Db where
  orders :=
    ⟨[{ id := 1, orderNumber := "ORD-1", userId := 7, subtotal := 100, taxAmount := 18
        shippingFee := 50
        totalAmount := 168, shipping := Stock.home, paymentMethod := "upi" }], by decide⟩
  wallet := .ofWallets .empty ⟨[{ id := 1, userId := 7, balance := 0 }], by decide⟩

theorem shop_rewarded : Rewarded shop where
  unique := by decide
  once number := by
    show (0 : ℤ) ≤ 1
    decide
  claimed number h := absurd h (lt_irrefl (0 : ℤ))

def confirm : Action := .confirm 10 1 "pay_1" "TRK-1"

def confirmAndCancel : List Action := [confirm, .cancel 20 1 "late"]

theorem rewarded_once_sample :
    RewardedOnce shop confirmAndCancel ∧
      cashbacks "ORD-1" (run step shop confirmAndCancel) = 1 := by
  have hpending : ∀ o ∈ shop.orders, o.id = 1 → o.status = .pending := by decide
  refine ⟨rewarded_once shop_rewarded ⟨fun _ _ => hpending, trivial, trivial⟩, ?_⟩
  decide +kernel

/-- A repeated confirmation, and one of a cancelled order. -/
theorem rewarded_again : cashbacks "ORD-1" (run step shop [confirm, confirm]) = 2 ∧
    cashbacks "ORD-1" (run step shop [.cancel 5 1 "late", confirm]) = 1 ∧
    ¬ RewardedOnce shop [confirm, confirm] := by
  have htwice : cashbacks "ORD-1" (run step shop [confirm, confirm]) = 2 := by decide +kernel
  have hsome : ∃ o ∈ (run step shop [confirm, confirm]).orders, o.orderNumber = "ORD-1" := by
    decide +kernel
  refine ⟨htwice, by decide +kernel, fun h => ?_⟩
  obtain ⟨o, ho, hnumber⟩ := hsome
  have hle := h.1 [confirm, confirm] [] rfl o ho
  rw [hnumber, htwice] at hle
  exact absurd hle (by decide)

end WezuBackend.Catalog.Cashback
