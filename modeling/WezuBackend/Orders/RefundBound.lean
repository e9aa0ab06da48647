import WezuBackend.Orders.Exclusivity
import WezuBackend.Orders.Refund

/-!
# What is refunded for an order

Each return is refunded once, since a refund marks it as processed; but an order whose return has
been delivered can be returned again, and the second return is refunded as well.  `Booked` is the
invariant: a return is worth what its order is worth, every refund that the gateway accepted is of a
processed return, and no two are of returns of one order.  A refund for an order that has a
processed return breaks the last part (`order_refunded_twice`); runs without such refunds keep it.
-/

namespace WezuBackend.Orders.RefundBound

open Lib.Tables Lib.Atomicity Lib.Atomicity.Tx Lib.Runs Core.Letters Fleet.Model
open Orders.Service Orders.Effects Orders.Requests
open Orders.Lifecycle Orders.Records Orders.Refund Orders.Drivers Orders.Exclusivity

/-! ## The terms of an order -/

/-- What a refund depends on. -/
structure Terms where
  id : String
  type : String
  originalOrderId : Option String
  refundStatus : String
  totalValue : ℤ

def termsOf (order : Order) : Terms :=
  ⟨order.id, order.type, order.originalOrderId, order.refundStatus, order.totalValue⟩

def terms (orders : Table Order) : List Terms := orders.rows.map termsOf

theorem mem_terms {orders : Table Order} {t : Terms} :
    t ∈ terms orders ↔ ∃ order ∈ orders, termsOf order = t := List.mem_map

theorem terms_set {orders : Table Order} {order order' : Order} (h : order ∈ orders)
    (hterms : termsOf order' = termsOf order) : terms (orders.set order') = terms orders := by
  have hid : order'.id = order.id := congrArg Terms.id hterms
  unfold terms Table.set
  rw [List.map_map]
  refine List.map_congr_left fun x hx => ?_
  dsimp only [Function.comp_apply]
  split_ifs with hkey
  · obtain rfl := Table.eq_of_key hx h (hkey.trans hid)
    exact hterms
  · rfl

theorem terms_insertOrder {orders : Table Order} {order : Order}
    (h : orders.get? order.id = none) :
    terms (insertOrder orders order) = terms orders ++ [termsOf order] := by
  rw [insertOrder_of_new h, terms, Table.insert, List.map_append]
  rfl

/-- A new order: a delivery, or a return on the terms of its order. -/
inductive NewTerms (old : List Terms) (t : Terms) : Prop
  | delivery (htype : t.type = "delivery") (hvalue : 0 ≤ t.totalValue)
  | giveBack {original} (hmem : original ∈ old) (htype : t.type = "return")
      (horiginal : t.originalOrderId = some original.id)
      (hvalue : t.totalValue = original.totalValue)

/-- A request leaves the terms alone, or adds those of a new order. -/
def Extended (orders orders' : Table Order) : Prop :=
  terms orders' = terms orders ∨
    ∃ t, NewTerms (terms orders) t ∧ terms orders' = terms orders ++ [t]

theorem terms_markOrderAssigned (now : ℕ) (order : Order) :
    termsOf (markOrderAssignedIfPending now order) = termsOf order := by
  unfold markOrderAssignedIfPending
  split_ifs <;> rfl

theorem terms_unassigned (now : ℕ) (order : Order) :
    termsOf (unassigned now order) = termsOf order := by
  unfold termsOf unassigned
  rfl

variable {key : Option String} {s t : Session Db}

theorem terms_changeDriver {now driverId : ℕ} {scope : RequestScope}
    {previous order : Order} (hmem : previous ∈ s.working.orders)
    (h : changeDriver now scope key previous driverId s = (.ok order, t)) :
    terms t.working.orders = terms s.working.orders := by
  obtain ⟨horder, orders, hmem', hlast, horders⟩ := changeDriver_orders hmem h
  have hterms : termsOf order = termsOf previous := by
    rw [horder, withDriver, terms_markOrderAssigned]
    rfl
  rw [hlast, terms_set hmem' hterms]
  rcases horders with rfl | ⟨conflicting, hconflicting, rfl⟩
  · rfl
  · exact terms_set hconflicting (terms_unassigned now conflicting)

section

variable [Casing]

theorem body_extended {request : Request} {order : Order}
    (h : request.body key s = (.ok order, t)) : Extended s.working.orders t.working.orders := by
  cases request with
  | create now scope payload =>
    rw [Request.body, bind_ok] at h
    obtain ⟨prepared, s₁, hprepare, hstore⟩ := h
    obtain ⟨-, fresh, u₁, u₂, hfresh, -, -, -, htake⟩ := prepareOrder_ok hprepare
    have hterms : termsOf prepared.1 = termsOf fresh := by
      rcases takeDriver_ok htake with ⟨-, hsame, -⟩ | ⟨d, -, hsame, -⟩
      · rw [hsame]
        rfl
      · rw [hsame, terms_markOrderAssigned]
        rfl
    refine .inr ⟨termsOf prepared.1, ?_, ?_⟩
    · rw [hterms]
      exact .delivery hfresh.type hfresh.totalValue
    · rw [storeOrder_orders hstore, ← prepareOrder_orders hprepare]
      exact terms_insertOrder (storeOrder_ok hstore).2.1
  | update now scope orderId statusUpdate =>
    rw [Request.body] at h
    obtain ⟨loaded, hmem, hupdate⟩ := updateStatus_ok h
    obtain ⟨-, horder, -⟩ := updateLoaded_ok hupdate
    left
    rw [updateLoaded_orders hupdate, horder, writeOrder_of_mem hmem]
    exact terms_set hmem rfl
  | prove now scope orderId pod =>
    rw [Request.body] at h
    obtain ⟨previous, hmem, -, ⟨imageUrl, signatureUrl, horder⟩, horders⟩ := proveDelivery_orders h
    left
    rw [horders, horder]
    exact terms_set hmem rfl
  | assign now scope orderId driverReferences =>
    rw [Request.body, bind_ok] at h
    obtain ⟨driverReference, s₀, hreference, h⟩ := h
    obtain ⟨-, rfl⟩ := lift_ok.mp hreference
    obtain ⟨previous, driver, hprevious, -, -, hassign⟩ := assignTo_ok h
    have hmem := namedOrder_mem hprevious
    left
    rcases hassign with ⟨-, hconfirm⟩ | ⟨-, hchange⟩
    · obtain ⟨horder, hrecords⟩ := confirmDriver_ok hconfirm
      rw [orders_of_records _ _ hrecords, horder]
      exact terms_set hmem (terms_markOrderAssigned now previous)
    · exact terms_changeDriver hmem hchange
  | giveBack now scope returnId orderId reason =>
    rw [Request.body] at h
    obtain ⟨original, hmem, ⟨ids, horder⟩, hnew, horders⟩ := returnDelivered_orders h
    refine .inr ⟨termsOf order, ?_, ?_⟩
    · rw [horder]
      exact .giveBack (mem_terms.mpr ⟨original, hmem, rfl⟩) rfl rfl rfl
    · rw [horders]
      exact terms_insertOrder hnew

theorem step_extended (request : Request) (db : Db) :
    Extended db.orders (request.step db).orders := by
  rcases request.step_cases db with hrecords | ⟨key, db₀, order, t, -, hsame, hrun, hstep⟩
  · exact .inl (congrArg terms (orders_of_records _ _ hrecords))
  · have h := body_extended hrun
    rw [hstep]
    rwa [Session.working_fresh, orders_of_records _ _ hsame] at h

end

/-! ## The books -/

def refundedOrder (refund : GatewayRefund) : Option String := refund.response.originalOrderId

def refunded (db : RefundDb) (orderId : String) : ℤ :=
  ((db.gateway.filter fun refund => refundedOrder refund = some orderId).map
    GatewayRefund.amount).sum

/-- The order whose return was refunded is worth the refund. -/
def Covered (old : List Terms) (refund : GatewayRefund) : Prop :=
  ∃ t ∈ old, t.type = "return" ∧ t.refundStatus = "processed" ∧
    t.originalOrderId = refundedOrder refund ∧ t.totalValue = refund.amount

structure Booked (db : RefundDb) : Prop where
  indexed : UniqueIndexes db.fleet
  recorded : OneRecord db.fleet
  nonneg : ∀ t ∈ terms db.fleet.orders, 0 ≤ t.totalValue
  copied : ∀ t ∈ terms db.fleet.orders, t.type = "return" → ∀ k ∈ t.originalOrderId,
    ∃ original ∈ terms db.fleet.orders, original.id = k ∧ t.totalValue = original.totalValue
  covered : ∀ refund ∈ db.gateway, Covered (terms db.fleet.orders) refund
  once : (db.gateway.filterMap refundedOrder).Nodup

variable {db : RefundDb}

/-- **What is refunded for an order** is at most its value. -/
theorem Booked.bound (h : Booked db) {order : Order}
    (hmem : order ∈ db.fleet.orders) : refunded db order.id ≤ order.totalValue := by
  have hterms : termsOf order ∈ terms db.fleet.orders := mem_terms.mpr ⟨order, hmem, rfl⟩
  refine sum_filter_le h.once (h.nonneg _ hterms) fun refund hrefund horder => ?_
  obtain ⟨t, ht, htype, -, horiginal, hvalue⟩ := h.covered refund hrefund
  obtain ⟨original, horig, hid, hcopied⟩ := h.copied t ht htype order.id (horiginal.trans horder)
  obtain ⟨order', hmem', rfl⟩ := mem_terms.mp horig
  obtain rfl := Table.eq_of_key hmem' hmem hid
  rw [← hvalue, hcopied]
  exact le_rfl

/-! ## Steps -/

inductive RefundRequest where
  | order (request : Request)
  | refund (now : ℕ) (scope : RequestScope) (answer : GatewayAnswer) (orderReference : String)

def refundStep [Casing] (db : RefundDb) : RefundRequest → RefundDb
  | .order request => { db with fleet := request.step db.fleet }
  | .refund now scope answer orderReference =>
    ((processRefund now scope answer orderReference).call db).2

/-- The order of the return has another return that is processed. -/
def Refunded (orders : Table Order) (order : Order) : Prop :=
  ∃ other ∈ orders, other.type = "return" ∧ other.originalOrderId = order.originalOrderId ∧
    other.refundStatus = "processed"

/-- A refund that the gateway is to accept is answered from its key, or is of a return that is
processed already, or is the first for its order. -/
def FirstRefund (db : RefundDb) : RefundRequest → Prop
  | .refund now scope (.accepted _) orderReference => Replayed now scope db.fleet ∨
    ∀ order, namedOrder db.fleet.orders orderReference = some order → order.type = "return" →
      order.refundStatus ≠ "processed" → ¬ Refunded db.fleet.orders order
  | _ => True

theorem Booked.extended (h : Booked db) {fleet : Db} (hu : UniqueIndexes fleet)
    (hone : OneRecord fleet) (hext : Extended db.fleet.orders fleet.orders) :
    Booked { db with fleet } := by
  rcases hext with hsame | ⟨t, hnew, hadded⟩
  · exact ⟨hu, hone, by rw [hsame]; exact h.nonneg, by rw [hsame]; exact h.copied,
      by rw [hsame]; exact h.covered, h.once⟩
  have hold : ∀ x ∈ terms db.fleet.orders, x ∈ terms fleet.orders := by
    intro x hx
    rw [hadded]
    exact List.mem_append_left _ hx
  have hcases : ∀ x ∈ terms fleet.orders, x ∈ terms db.fleet.orders ∨ x = t := by
    intro x hx
    rw [hadded, List.mem_append, List.mem_singleton] at hx
    exact hx
  refine ⟨hu, hone, fun x hx => ?_, fun x hx htype k hk => ?_, fun refund hrefund => ?_, h.once⟩
  · rcases hcases x hx with hx | rfl
    · exact h.nonneg x hx
    · cases hnew with
      | delivery _ hvalue => exact hvalue
      | giveBack hmem _ _ hvalue => rw [hvalue]; exact h.nonneg _ hmem
  · rcases hcases x hx with hx | rfl
    · obtain ⟨original, hmem, hid, hvalue⟩ := h.copied x hx htype k hk
      exact ⟨original, hold _ hmem, hid, hvalue⟩
    · cases hnew with
      | delivery hdelivery _ => rw [hdelivery] at htype; exact absurd htype (by decide)
      | giveBack hmem _ horiginal hvalue =>
        rw [horiginal] at hk
        cases hk
        exact ⟨_, hold _ hmem, rfl, hvalue⟩
  · obtain ⟨x, hx, hcovers⟩ := h.covered refund hrefund
    exact ⟨x, hold x hx, hcovers⟩

def unmarked (t : Terms) : Terms := { t with refundStatus := "none" }

theorem of_unmarked_eq {t t' : Terms} (h : unmarked t = unmarked t') : t.id = t'.id ∧
    t.type = t'.type ∧ t.originalOrderId = t'.originalOrderId ∧ t.totalValue = t'.totalValue := by
  obtain ⟨hid, htype, horiginal, -, hvalue⟩ := Terms.mk.inj h
  exact ⟨hid, htype, horiginal, hvalue⟩

section

variable {orders : Table Order} {order : Order} (h : order ∈ orders) (now : ℕ)
  (refundStatus : String)
include h

theorem writeStatus_of_mem : writeStatus now refundStatus order orders =
    orders.set (withRefundStatus now refundStatus order) := by
  have hget : orders.get? order.id = some order := Table.get?_of_mem h
  unfold writeStatus
  rw [hget]
  simp only [writtenStatus, writtenColumn_of_loaded]
  rfl

theorem unmarked_terms :
    (terms (orders.set (withRefundStatus now refundStatus order))).map unmarked =
    (terms orders).map unmarked := by
  unfold terms Table.set
  rw [List.map_map, List.map_map, List.map_map]
  refine List.map_congr_left fun x hx => ?_
  dsimp only [Function.comp_apply]
  split_ifs with hkey
  · obtain rfl : x = order := Table.eq_of_key hx h hkey
    rfl
  · rfl

theorem mem_terms_marked :
    termsOf (withRefundStatus now refundStatus order) ∈
      terms (orders.set (withRefundStatus now refundStatus order)) :=
  mem_terms.mpr ⟨_, mem_set_self h rfl, rfl⟩

theorem mem_terms_processed (hstatus : order.refundStatus ≠ "processed") {t : Terms}
    (ht : t ∈ terms orders) (hprocessed : t.refundStatus = "processed") :
    t ∈ terms (orders.set (withRefundStatus now refundStatus order)) := by
  obtain ⟨x, hx, rfl⟩ := mem_terms.mp ht
  refine mem_terms.mpr ⟨x, mem_set_other hx fun hkey => hstatus ?_, rfl⟩
  obtain rfl : x = order := Table.eq_of_key hx h hkey
  exact hprocessed

end

/-- An order that is not processed is marked, and the gateway may have refunded it. -/
theorem Booked.marked (h : Booked db) {order : Order}
    (hmem : order ∈ db.fleet.orders) (hstatus : order.refundStatus ≠ "processed") {now : ℕ}
    {refundStatus : String} {db' : RefundDb} (hu : UniqueIndexes db'.fleet)
    (hone : OneRecord db'.fleet)
    (hset : db'.fleet.orders = db.fleet.orders.set (withRefundStatus now refundStatus order))
    {refunds : List GatewayRefund} (hgateway : db'.gateway = db.gateway ++ refunds)
    (hcovered : ∀ refund ∈ refunds, Covered (terms db'.fleet.orders) refund)
    (honce : ((db.gateway ++ refunds).filterMap refundedOrder).Nodup) : Booked db' := by
  have hunmarked := unmarked_terms hmem now refundStatus
  have hback : ∀ t ∈ terms db'.fleet.orders, ∃ x ∈ terms db.fleet.orders,
      unmarked x = unmarked t := by
    intro t ht
    rw [hset] at ht
    have hmap : unmarked t ∈ (terms db.fleet.orders).map unmarked := by
      rw [← hunmarked]
      exact List.mem_map_of_mem ht
    exact List.mem_map.mp hmap
  have hforth : ∀ x ∈ terms db.fleet.orders, ∃ t ∈ terms db'.fleet.orders,
      unmarked t = unmarked x := by
    intro x hx
    have hmap : unmarked x ∈ (terms db'.fleet.orders).map unmarked := by
      rw [hset, hunmarked]
      exact List.mem_map_of_mem hx
    exact List.mem_map.mp hmap
  refine ⟨hu, hone, ?_, ?_, ?_, by rwa [hgateway]⟩
  · intro t ht
    obtain ⟨x, hx, hsame⟩ := hback t ht
    rw [← (of_unmarked_eq hsame).2.2.2]
    exact h.nonneg x hx
  · intro t ht htype k hk
    obtain ⟨x, hx, hsame⟩ := hback t ht
    obtain ⟨-, htype', horiginal, hvalue⟩ := of_unmarked_eq hsame
    obtain ⟨original, horig, hid, hcopied⟩ := h.copied x hx (htype'.trans htype) k (horiginal ▸ hk)
    obtain ⟨original', horig', hsame'⟩ := hforth original horig
    obtain ⟨hid', -, -, hvalue'⟩ := of_unmarked_eq hsame'
    exact ⟨original', horig', hid'.trans hid, by omega⟩
  · intro refund hrefund
    rw [hgateway] at hrefund
    rcases List.mem_append.mp hrefund with hold | hnew
    · obtain ⟨x, hx, htype, hprocessed, hrest⟩ := h.covered refund hold
      refine ⟨x, ?_, htype, hprocessed, hrest⟩
      rw [hset]
      exact mem_terms_processed hmem now refundStatus hstatus hx hprocessed
    · exact hcovered refund hnew

theorem Booked.once_append (h : Booked db) {refund : GatewayRefund}
    (hfirst : ∀ t ∈ terms db.fleet.orders, t.type = "return" → t.refundStatus = "processed" →
      t.originalOrderId ≠ refundedOrder refund) :
    ((db.gateway ++ [refund]).filterMap refundedOrder).Nodup := by
  rw [List.filterMap_append, List.nodup_append]
  refine ⟨h.once, ?_, ?_⟩
  · rcases hrefund : refundedOrder refund with _ | k
    · rw [List.filterMap_cons_none hrefund]
      exact List.nodup_nil
    · rw [List.filterMap_cons_some hrefund]
      exact List.nodup_singleton k
  · rintro k hk _ hk' rfl
    obtain ⟨old, hold, hkey⟩ := List.mem_filterMap.mp hk
    obtain ⟨new, hnew, hkey'⟩ := List.mem_filterMap.mp hk'
    obtain rfl := List.mem_singleton.mp hnew
    obtain ⟨t, ht, htype, hprocessed, horiginal, -⟩ := h.covered old hold
    exact hfirst t ht htype hprocessed (horiginal.trans (hkey.trans hkey'.symm))

/-- **A refund** that is the first for its order is booked, and no wallet is credited. -/
theorem refund_booked (h : Booked db) (now : ℕ) (scope : RequestScope)
    (answer : GatewayAnswer) (orderReference : String)
    (hfirst : FirstRefund db (.refund now scope answer orderReference)) :
    Booked ((processRefund now scope answer orderReference).call db).2 ∧
      ((processRefund now scope answer orderReference).call db).2.wallets = db.wallets := by
  have houtcome := refund_call now scope answer orderReference h.indexed h.recorded
  generalize (processRefund now scope answer orderReference).call db = result at houtcome ⊢
  cases houtcome with
  | refused hsame hone =>
    refine ⟨h.extended (uniqueIndexes_of_records hsame h.indexed) hone (.inl ?_), rfl⟩
    exact congrArg terms (orders_of_records _ _ hsame)
  | answered _ => exact ⟨h, rfl⟩
  | @failed e fleet plan db' hnew hsame hone hplan hrest =>
    obtain ⟨hfleet, hwallets, hgateway⟩ := of_exceptRefunds hrest
    obtain ⟨hnamed, -, -, hstatus, -⟩ := planRefund_ok hplan
    have horders := orders_of_records _ _ hsame
    have hmem := namedOrder_mem hnamed
    have hset : db'.fleet.orders =
        fleet.orders.set (withRefundStatus now "failed" plan.order) := by
      rw [hfleet]
      exact writeStatus_of_mem hmem now "failed"
    have hu' : UniqueIndexes db'.fleet := by
      rw [hfleet]
      exact uniqueIndexes_storeStatus (uniqueIndexes_of_records hsame h.indexed)
    have hone' : OneRecord db'.fleet := by
      rw [hfleet]
      exact hone
    refine ⟨?_, hwallets⟩
    dsimp only at hmem
    rw [horders] at hmem hset
    refine h.marked hmem hstatus hu' hone' hset (hgateway.trans (List.append_nil _).symm) ?_ ?_
    · exact fun _ hrefund => absurd hrefund List.not_mem_nil
    · rw [List.append_nil]
      exact h.once
  | @paid fleet plan transactionId razorpayPaymentId gatewayRefundId db' hnew haccepted hsame hplan
      hdestination hgateway hwallets hrest hone =>
    obtain ⟨hnamed, htype, -, hstatus, -, hamount, -⟩ := planRefund_ok hplan
    have horders := orders_of_records _ _ hsame
    have hmem := namedOrder_mem hnamed
    have hset : db'.fleet.orders =
        fleet.orders.set (withRefundStatus now "processed" plan.order) := by
      rw [orders_of_records _ _ hrest]
      exact writeStatus_of_mem hmem now "processed"
    have hu' : UniqueIndexes db'.fleet := by
      refine uniqueIndexes_of_records hrest (uniqueIndexes_storeStatus ?_)
      exact uniqueIndexes_of_records hsame h.indexed
    refine ⟨?_, hwallets⟩
    dsimp only at hmem hnamed
    rw [horders] at hmem hset hnamed
    refine h.marked hmem hstatus hu' hone hset hgateway ?_ (h.once_append ?_)
    · rintro refund hrefund
      obtain rfl := List.mem_singleton.mp hrefund
      refine ⟨termsOf (withRefundStatus now "processed" plan.order), ?_, htype, rfl,
        rfl, hamount.symm⟩
      rw [hset]
      exact mem_terms_marked hmem now "processed"
    · rintro t ht hreturn hprocessed horiginal
      obtain ⟨other, hother, rfl⟩ := mem_terms.mp ht
      rw [haccepted] at hfirst
      rcases hfirst with hreplayed | hfirst
      · exact hnew hreplayed
      · exact hfirst plan.order hnamed htype hstatus ⟨other, hother, hreturn, horiginal, hprocessed⟩

section

variable [Casing]

theorem step_booked (h : Booked db) (request : RefundRequest) (hfirst : FirstRefund db request) :
    Booked (refundStep db request) ∧ (refundStep db request).wallets = db.wallets := by
  cases request with
  | order request =>
    have hbooked : Booked { db with fleet := request.step db.fleet } :=
      h.extended (step_uniqueIndexes request h.indexed) (step_oneRecord request h.recorded)
        (step_extended request db.fleet)
    exact ⟨hbooked, rfl⟩
  | refund now scope answer orderReference =>
    rw [refundStep]
    exact refund_booked h now scope answer orderReference hfirst

/-- **The refund bound.**  From a store whose refunds are booked, what is refunded for the returns
of an order never exceeds its value, if every refund that is made is the first one for its order. -/
theorem refunds_bounded_over_runs (db : RefundDb) (requests : List RefundRequest)
    (hstart : Booked db) (hfirst : Along refundStep FirstRefund db requests) :
    ∀ p q, requests = p ++ q → (run refundStep db p).wallets = db.wallets ∧
      ∀ order ∈ (run refundStep db p).fleet.orders,
        refunded (run refundStep db p) order.id ≤ order.totalValue := by
  rintro p q rfl
  have hinvariant : Booked (run refundStep db p) ∧ (run refundStep db p).wallets = db.wallets := by
    refine run_invariant_of_along (I := fun db' => Booked db' ∧ db'.wallets = db.wallets) ?_
      ⟨hstart, rfl⟩ (along_append.mp hfirst).1
    rintro db' request ⟨hbooked, hwallets⟩ hcondition
    obtain ⟨hbooked', hwallets'⟩ := step_booked hbooked request hcondition
    exact ⟨hbooked', hwallets'.trans hwallets⟩
  exact ⟨hinvariant.2, fun order hmem => hinvariant.1.bound hmem⟩

end

/-! ## An order that is refunded twice -/

/-- The depot, where order `O1` was paid by payment `pay_1`. -/
def shop : RefundDb where
  fleet := depot
  transactions := ⟨[{ id := 1, referenceType := some "order", referenceId := some "O1",
                      razorpayPaymentId := some "pay_1" }], by decide⟩

/-- Order `O1`, for 10.00. -/
def soldOrder : Request :=
  .create 1 (operator "/orders")
    { generatedId := "O1", units := 1, destination := "Pune", assignedBatteryIds := ["B1"],
      assignedDriverId := some 7, totalValue := some 10 }

/-- A return of order `O1` that is delivered and refunded. -/
def returnedAs (returnId : String) : List RefundRequest :=
  [.order (returnOf returnId),
    .order (.assign 1 (operator "/orders/assign-driver") returnId [.text "7"]),
    .order (proofOf returnId),
    .refund 1 (operator "/orders/refund") (.accepted (some "rfnd_1")) returnId]

def soldAndReturned : List RefundRequest :=
  [.order soldOrder, .order (proofOf "O1")] ++ returnedAs "R1"

theorem booked_shop : Booked shop := by
  have hterms : ∀ t, t ∉ terms shop.fleet.orders := fun _ => List.not_mem_nil
  refine ⟨⟨?_, ?_, ?_⟩, ?_, ?_, ?_, ?_, List.nodup_nil⟩
  · decide
  · decide
  · decide
  · exact fun r hr => absurd hr (Table.not_mem_empty r)
  · exact fun t ht => absurd ht (hterms t)
  · exact fun t ht => absurd ht (hterms t)
  · exact fun _ hrefund => absurd hrefund List.not_mem_nil

theorem not_refunded {orders : Table Order}
    (h : ∀ other ∈ orders.rows, other.refundStatus ≠ "processed") (order : Order) :
    ¬ Refunded orders order := by
  rintro ⟨other, hother, -, -, hprocessed⟩
  exact h other hother hprocessed

theorem refunds_bounded_over_runs_sample :
    (run refundStep shop soldAndReturned).wallets = shop.wallets ∧
      ∀ order ∈ (run refundStep shop soldAndReturned).fleet.orders,
        refunded (run refundStep shop soldAndReturned) order.id ≤ order.totalValue := by
  refine refunds_bounded_over_runs shop soldAndReturned booked_shop
    ⟨trivial, trivial, trivial, trivial, trivial, .inr fun order _ _ _ => not_refunded ?_ order,
      trivial⟩ _ [] (List.append_nil _).symm
  decide +kernel

/-- **A second return** of order `O1` is refunded as well. -/
theorem order_refunded_twice :
    (∃ order ∈ (run refundStep shop (soldAndReturned ++ returnedAs "R2")).fleet.orders.rows,
      order.id = "O1" ∧ order.totalValue = 1000) ∧
    refunded (run refundStep shop (soldAndReturned ++ returnedAs "R2")) "O1" = 2000 := by
  decide +kernel

end WezuBackend.Orders.RefundBound
