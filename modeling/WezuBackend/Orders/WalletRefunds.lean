import WezuBackend.Orders.Refund

/-!
# Refunds to the wallet

A return order without a payment at the gateway is refunded to its customer's wallet.  The ledger
entry is made without its user, and the database takes no such row: the whole call is undone.
`wallet_never_credited` says so for every store, and `refund_refused` that asking again meets the
same end.
-/

namespace WezuBackend.Orders.WalletRefunds

open Lib.Tables Lib.Atomicity Lib.Atomicity.Tx
open Core.Base Fleet.Model
open Orders.Normalise Orders.Service Orders.Effects
open Orders.Requests Orders.Records
open Orders.Refund
open Financial.Model (Wallet Refund RefundStatus)

/-! ## What a refund to the wallet is -/

/-- The order that a refund to the wallet of `user` is due for. -/
structure DueToWallet (db : RefundDb) (orderReference : String) (order : Order) (user : User) :
    Prop where
  named : namedOrder db.fleet.orders orderReference = some order
  returned : order.type = "return"
  delivered : canonicalOrderStatus order.status = "delivered"
  pending : order.refundStatus = "pending"
  positive : 0 < order.totalValue
  customer : resolveCustomerUser db.fleet
    (((truthy order.originalOrderId).bind db.fleet.orders.get?).getD order) = some user
  unpaid : ((sourceTransaction db order).bind fun t => truthy t.razorpayPaymentId) = none

/-- What the user's wallet holds, in hundredths; no wallet holds nothing. -/
def balanceOf (wallets : Table Wallet) (userId : ℕ) : ℤ :=
  ((wallets.find? fun w => w.userId = userId).map Wallet.balance).getD 0

/-- The call is refused, and nothing but the stored responses may have changed. -/
def Refused (outcome : Except Exc Order × RefundDb) (db : RefundDb) : Prop :=
  ∃ e fleet, outcome = (.error e, { db with fleet }) ∧ exceptRecords fleet = exceptRecords db.fleet

/-- A refund of the order has gone to the user's wallet, with a ledger entry and a refund row, the
order is marked, and whoever asks again is refused. -/
structure PaidToWallet (db : RefundDb) (outcome : Except Exc Order × RefundDb)
    (orderReference : String) (order : Order) (user : User) : Prop where
  answered : ∃ response, outcome.1 = .ok response
  credited : balanceOf outcome.2.wallets user.id =
    balanceOf db.wallets user.id + order.totalValue
  entered : ∃ t ∈ outcome.2.transactions, t ∉ db.transactions ∧ t.referenceId = some order.id ∧
    ∃ r ∈ outcome.2.refunds, r ∉ db.refunds ∧ r.transactionId = t.id ∧
      r.amount = order.totalValue ∧ r.status = .processed
  marked : ∃ o ∈ outcome.2.fleet.orders, o.id = order.id ∧ o.refundStatus = "processed"
  once : ∀ now scope answer, ¬ Replayed now scope outcome.2.fleet →
    Refused ((processRefund now scope answer orderReference).call outcome.2) outcome.2

/-! ## The plan -/

theorem planRefund_of_records {db : RefundDb} {fleet : Db}
    (h : exceptRecords fleet = exceptRecords db.fleet) (orderReference : String) :
    planRefund { db with fleet } orderReference = planRefund db orderReference := by
  have hplan : ∀ fleet' : Db, planRefund { db with fleet := fleet' } orderReference =
      planRefund { db with fleet := exceptRecords fleet' } orderReference := fun _ => rfl
  have hself := hplan db.fleet
  rw [hplan fleet, h]
  exact hself.symm

section

variable {db : RefundDb} {orderReference : String} {order : Order} {user : User}

theorem destinationOf_wallet {source : Option Transaction}
    (h : (source.bind fun t => truthy t.razorpayPaymentId) = none) (user : User) :
    destinationOf source (some user) = .wallet user.id := by
  unfold destinationOf
  rcases source with _ | t
  · rfl
  · rw [Option.bind_some] at h ⊢
    rw [h]
    rfl

theorem DueToWallet.plan (h : DueToWallet db orderReference order user) :
    ∃ plan, planRefund db orderReference = .ok plan ∧ plan.destination = .wallet user.id := by
  have hdestination := destinationOf_wallet h.unpaid user
  have hprocessed : order.refundStatus ≠ "processed" := by
    rw [h.pending]
    decide
  have hmarked : order.refundStatus ≠ "none" := by
    rw [h.pending]
    decide
  unfold planRefund
  rw [h.named]
  simp only [bind, Except.bind, pure, Except.pure, throw, throwThe, MonadExceptOf.throw]
  rw [if_neg (not_not.mpr h.returned), if_neg (not_not.mpr h.delivered), if_neg hprocessed,
    if_neg hmarked, if_neg (not_le.mpr h.positive), h.customer]
  exact ⟨_, rfl, hdestination⟩

/-! ## The call -/

/-- **A refund to the wallet is refused**, however often it is asked for, unless the answer to an
earlier request is given. -/
theorem refund_refused (hone : OneRecord db.fleet) (h : DueToWallet db orderReference order user)
    (now : ℕ) (scope : RequestScope) (answer : GatewayAnswer)
    (hnew : ¬ Replayed now scope db.fleet) :
    Refused ((processRefund now scope answer orderReference).call db) db := by
  rcases refund_start now scope answer orderReference hone with ⟨e, hcall⟩ |
    ⟨hreplayed, -⟩ | ⟨-, key, fleet, hsame, -, -, hcall⟩
  · rw [call_eq hcall]
    exact ⟨e, db.fleet, rfl, rfl⟩
  · exact absurd hreplayed hnew
  · obtain ⟨plan, hplan, hdestination⟩ := h.plan
    rw [← planRefund_of_records hsame] at hplan
    obtain ⟨t, hraises, hcommitted⟩ :=
      creditWallet_raises user.id plan (.fresh { db with fleet })
    have hsettle : settleRefund now scope key answer plan (.fresh { db with fleet }) =
        (.error .integrityError, t) := by
      unfold settleRefund
      rw [hdestination]
      exact bind_of_error hraises
    rw [call_eq (hcall.trans ((lift_bind hplan _ _).trans hsettle)), hcommitted]
    exact ⟨_, fleet, rfl, hsame⟩

/-- **The wallet is never credited**: no call pays a refund that is due to a wallet. -/
theorem wallet_never_credited (hone : OneRecord db.fleet)
    (h : DueToWallet db orderReference order user) (now : ℕ) (scope : RequestScope)
    (answer : GatewayAnswer) :
    ¬ PaidToWallet db ((processRefund now scope answer orderReference).call db) orderReference
      order user := by
  intro hpaid
  rcases refund_start now scope answer orderReference hone with ⟨e, hcall⟩ |
    ⟨-, data, hcall⟩ | ⟨hnot, -⟩
  · obtain ⟨response, hok⟩ := hpaid.answered
    rw [call_eq hcall] at hok
    cases hok
  · have hcredited := hpaid.credited
    have hpositive := h.positive
    rw [call_eq hcall] at hcredited
    dsimp only [Session.committed_fresh] at hcredited
    omega
  · obtain ⟨response, hok⟩ := hpaid.answered
    obtain ⟨e, fleet, hcall, -⟩ := refund_refused hone h now scope answer hnot
    rw [hcall] at hok
    cases hok

end

/-! ## An example -/

/-- A return for 10.00 was delivered; it was paid in cash. -/
def cashReturn : Order :=
  { id := "R76", status := "delivered", destination := "Pune", customerPhone := some "9876543210"
    totalValue := 1000, orderDate := 0, updatedAt := 0, type := "return"
    refundStatus := "pending" }

/-- Its customer has a wallet with 50.00. -/
def cashShop : RefundDb where
  fleet :=
    { orders := ⟨[cashReturn], List.nodup_singleton _⟩
      users := ⟨[{ id := 76, phoneNumber := some "9876543210" }], List.nodup_singleton _⟩ }
  wallets := ⟨[{ id := 1, userId := 76, balance := 5000 }], List.nodup_singleton _⟩

def clerk : RequestScope :=
  { userId := 1, requestMethod := "POST", requestPath := "/orders/R76/refund"
    requestFingerprint := "" }

theorem cashShop_due : DueToWallet cashShop "R76" cashReturn
    { id := 76, phoneNumber := some "9876543210" } := by
  refine ⟨?_, rfl, ?_, rfl, by decide, ?_, rfl⟩ <;> decide +kernel

theorem cashShop_oneRecord : OneRecord cashShop.fleet :=
  fun r hr => absurd hr (Table.not_mem_empty r)

theorem wallet_never_credited_sample :
    ¬ PaidToWallet cashShop ((processRefund 1 clerk (.accepted none) "R76").call cashShop) "R76"
      cashReturn { id := 76, phoneNumber := some "9876543210" } :=
  wallet_never_credited cashShop_oneRecord cashShop_due 1 clerk (.accepted none)

/-- The customer gets nothing. -/
theorem cash_return_unpaid : ¬ ∀ (db : RefundDb) (orderReference : String) (order : Order)
    (user : User), UniqueIndexes db.fleet → OneRecord db.fleet →
      DueToWallet db orderReference order user → ∀ now scope answer,
        ¬ Replayed now scope db.fleet →
          PaidToWallet db ((processRefund now scope answer orderReference).call db)
            orderReference order user := by
  intro hclaim
  have hindexed : UniqueIndexes cashShop.fleet := by
    refine ⟨?_, ?_, ?_⟩ <;> exact fun b hb => absurd hb (Table.not_mem_empty b)
  have hnew : ¬ Replayed 1 clerk cashShop.fleet := by
    rintro ⟨key, -, k, -, r, hr, -⟩
    cases hr
  obtain ⟨response, hok⟩ := (hclaim cashShop "R76" cashReturn _ hindexed cashShop_oneRecord
    cashShop_due 1 clerk (.accepted none) hnew).answered
  obtain ⟨e, fleet, hcall, -⟩ :=
    refund_refused cashShop_oneRecord cashShop_due 1 clerk (.accepted none) hnew
  rw [hcall] at hok
  cases hok

end WezuBackend.Orders.WalletRefunds
