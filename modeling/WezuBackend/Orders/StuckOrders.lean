import WezuBackend.Orders.Endings
import WezuBackend.Orders.Exclusivity
import WezuBackend.Orders.StatusUpdates

/-!
# Orders that cannot be ended

An order in transit is ended by an update: it fails, it is cancelled, or it is a return that is
delivered.  The update goes through exactly if the batteries of the order can all go back to where
they came from (`ending_returns_iff`), and what happens there meanwhile decides whether they can.
-/

namespace WezuBackend.Orders.StuckOrders

open Lib.Tables Lib.Atomicity Lib.Runs Core.Base Core.Letters Fleet.Model
open Fleet.Consistency Orders.Normalise
open Orders.Service Orders.Effects Orders.Requests Orders.Records Orders.Drivers
open Orders.BatteryReads Orders.Exclusivity Orders.Endings Orders.StatusUpdates

section

variable [Casing]

variable {now : ℕ} {scope : RequestScope} {db db' : Db} {orderReference : String} {order : Order}
  {statusUpdate : StatusUpdate} {newStatus : String} {s t : Session Db}

/-! ## The store in which the batteries go back -/

omit [Casing] in
theorem not_active_of_ends (h : Ends order newStatus) :
    sqlOrderStatus newStatus ∉ activeOrderStatuses := by
  cases h <;> decide +kernel

omit [Casing] in
theorem ends_updated (h : Ends order newStatus) (now : ℕ) (statusUpdate : StatusUpdate) :
    Ends (updated now statusUpdate order) newStatus := by
  cases h with
  | failed => exact .failed
  | cancelled => exact .cancelled
  | delivered htype => exact .delivered htype

omit [Casing] in
theorem ended_set (h : Ends order (canonicalOrderStatus statusUpdate.status)) :
    Ended { db with orders := db.orders.set (updated now statusUpdate order) } order.id := by
  intro o ho hid
  rcases Table.mem_set.mp ho with ⟨-, hne⟩ | ⟨rfl, -⟩
  · exact absurd hid hne
  · exact not_active_of_ends h

theorem heldElsewhere_set {serial : String} (horders : db'.orders = db.orders)
    (hrows : db'.orderBatteries = db.orderBatteries) :
    HeldElsewhere { db' with orders := db'.orders.set (updated now statusUpdate order) } order.id
        serial ↔ HeldElsewhere db order.id serial := by
  have hmem : ∀ other : Order, other.id ≠ order.id →
      (other ∈ db'.orders.set (updated now statusUpdate order) ↔ other ∈ db.orders) := by
    intro other hne
    rw [Table.mem_set, horders]
    constructor
    · rintro (⟨hmem, -⟩ | ⟨rfl, -⟩)
      · exact hmem
      · exact absurd rfl hne
    · exact fun hmem => .inl ⟨hmem, hne⟩
  unfold HeldElsewhere
  rw [hrows]
  constructor
  · rintro ⟨row, hrow, hserial, other, hother, hid, hne, hactive⟩
    exact ⟨row, hrow, hserial, other, (hmem other hne).mp hother, hid, hne, hactive⟩
  · rintro ⟨row, hrow, hserial, other, hother, hid, hne, hactive⟩
    exact ⟨row, hrow, hserial, other, (hmem other hne).mpr hother, hid, hne, hactive⟩

variable {batteries : List Battery}

/-- All but the orders and the records are the same in the two stores, and so is what the batteries
find to go back to. -/
theorem allReturn_set (hsame : exceptRecords db' = exceptRecords db) :
    AllReturn { db' with orders := db'.orders.set (updated now statusUpdate order) }
        (updated now statusUpdate order) newStatus batteries ↔
      AllReturn db order newStatus batteries := by
  have hheld : ∀ serial, HeldElsewhere
      { db' with orders := db'.orders.set (updated now statusUpdate order) } order.id serial ↔
        HeldElsewhere db order.id serial := fun _ =>
    heldElsewhere_set (orders_of_records _ _ hsame) (batteryRows_of_records _ _ hsame)
  -- the records are read by no look-up
  obtain ⟨idempotencyKeys, orderRealtimeOutbox, rfl⟩ : ∃ idempotencyKeys orderRealtimeOutbox,
      db' = { db with idempotencyKeys, orderRealtimeOutbox } :=
    ⟨_, _, congrArg (fun x : Db => { x with
      idempotencyKeys := db'.idempotencyKeys
      orderRealtimeOutbox := db'.orderRealtimeOutbox }) hsame⟩
  have hthere : ∀ before b place, Returnable { db with
      idempotencyKeys, orderRealtimeOutbox
      orders := db.orders.set (updated now statusUpdate order) }
        (updated now statusUpdate order) newStatus before b place ↔
      Returnable db order newStatus before b place := by
    intro before b place
    constructor
    · intro h
      exact h.congr (fun _ => ⟨⟨rfl, rfl, rfl, rfl⟩, rfl, rfl, rfl⟩) rfl rfl rfl (hheld _).mpr
    · intro h
      exact h.congr (fun _ => ⟨⟨rfl, rfl, rfl, rfl⟩, rfl, rfl, rfl⟩) rfl rfl rfl (hheld _).mp
  unfold AllReturn
  simp only [hthere]

theorem reads_set (hsame : exceptRecords db' = exceptRecords db) :
    Reads { db' with orders := db'.orders.set (updated now statusUpdate order) }
        (updated now statusUpdate order) batteries ↔ Reads db order batteries := by
  have hbatteries : db'.batteries = db.batteries := by
    show (exceptRecords db').batteries = (exceptRecords db).batteries
    rw [hsame]
  have hrows : db'.orderBatteries = db.orderBatteries := batteryRows_of_records _ _ hsame
  constructor
  · exact fun h => h.congr hbatteries.symm hrows.symm rfl rfl
  · exact fun h => h.congr hbatteries hrows rfl rfl

/-! ## Updates that end an order -/

/-- The update ends an order that is in transit: it fails for a reason, it is cancelled, or it is a
return that is delivered. -/
structure Ending (order : Order) (statusUpdate : StatusUpdate) : Prop where
  inTransit : canonicalOrderStatus order.status = "in_transit"
  ends : Ends order (canonicalOrderStatus statusUpdate.status)
  reason : canonicalOrderStatus statusUpdate.status = "failed" →
    (truthy statusUpdate.failureReason).isSome

omit [Casing] in
theorem Ending.valid (h : Ending order statusUpdate) :
    validateStatusTransition order (canonicalOrderStatus statusUpdate.status) = .ok () := by
  unfold validateStatusTransition
  have hends := h.ends
  rw [canonical_canonical, h.inTransit]
  generalize canonicalOrderStatus statusUpdate.status = newStatus at hends ⊢
  cases hends <;> rfl

/-- The batteries of the order can be read, and they can all go back.  An order without any can be
failed or cancelled, but not delivered. -/
def CanEnd (db : Db) (order : Order) (newStatus : String) : Prop :=
  ∃ batteries, Reads db order batteries ∧ (newStatus = "delivered" → batteries ≠ []) ∧
    AllReturn db order newStatus batteries

theorem reaches_iff (h : Ending order statusUpdate) (hu : UniqueIndexes s.working) :
    (∃ s₁ s₂ t, Reaches now scope statusUpdate order s s₁ s₂ t ∧ UniqueIndexes t.working) ↔
      ∃ t, syncBatteriesForOrderStatus now (updated now statusUpdate order)
        (canonicalOrderStatus statusUpdate.status) statusUpdate.failureReason scope.userId
          (saved (updated now statusUpdate order) s) = (.ok (), t) := by
  have hdispatch : beginDispatch now order (canonicalOrderStatus statusUpdate.status) s =
      (.ok (), s) := by
    have hends := h.ends
    generalize canonicalOrderStatus statusUpdate.status = newStatus at hends ⊢
    cases hends <;> rfl
  have hretry : beginRetry now order (canonicalOrderStatus statusUpdate.status) s =
      (.ok (), s) := by
    rw [beginRetry, h.inTransit, if_neg (by simp)]
    rfl
  constructor
  · rintro ⟨s₁, s₂, t, hreach, -⟩
    obtain rfl := (Prod.mk.inj (hdispatch.symm.trans hreach.dispatch)).2
    obtain rfl := (Prod.mk.inj (hretry.symm.trans hreach.retry)).2
    exact ⟨t, hreach.sync⟩
  · rintro ⟨t, hsync⟩
    have hu' : UniqueIndexes (saved (updated now statusUpdate order) s).working :=
      ⟨hu.serials, hu.shelfBatteries, hu.orderBatteries⟩
    obtain ⟨batteries, s₁, -, -, hafter⟩ :=
      sync_run (ends_updated h.ends now statusUpdate) hu' (ended_set h.ends) hsync
    exact ⟨s, s, t, ⟨h.valid, h.reason, hdispatch, hretry, hsync⟩, hafter.unique⟩

theorem ending_returns_iff (hu : UniqueIndexes db) (hone : OneRecord db)
    (hnew : Unanswered now scope db) (hnamed : namedOrder db.orders orderReference = some order)
    (h : Ending order statusUpdate) :
    (∃ response,
        ((updateOrderStatus now scope orderReference statusUpdate).call db).1 = .ok response) ↔
      CanEnd db order (canonicalOrderStatus statusUpdate.status) := by
  obtain ⟨db₀, hsame, hreturns⟩ := update_returns_iff hu hone hnew hnamed
  have hu₀ : UniqueIndexes db₀ := uniqueIndexes_of_records hsame hu
  have hu' : UniqueIndexes (saved (updated now statusUpdate order) (.fresh db₀)).working :=
    ⟨hu₀.serials, hu₀.shelfBatteries, hu₀.orderBatteries⟩
  have hstatus : canonicalOrderStatus (updated now statusUpdate order).status =
      canonicalOrderStatus statusUpdate.status := canonical_canonical _
  have hnot : canonicalOrderStatus statusUpdate.status ∉ ["in_transit", "delivered"] ↔
      canonicalOrderStatus statusUpdate.status ≠ "delivered" := by
    have hends := h.ends
    generalize canonicalOrderStatus statusUpdate.status = newStatus at hends ⊢
    cases hends <;> decide
  rw [hreturns, reaches_iff (s := .fresh db₀) h hu₀,
    sync_iff (ends_updated h.ends now statusUpdate) hu' (ended_set h.ends), hstatus, hnot]
  refine exists_congr fun batteries => and_congr (reads_set hsame) (and_congr ?_ ?_)
  · exact ⟨fun hsome hdelivered hnil => hsome hnil hdelivered, fun hsome hnil hdelivered =>
      hsome hdelivered hnil⟩
  · exact allReturn_set hsame

/-! ## Whatever happens meanwhile -/

omit [Casing] in
/-- A change that other code makes; the unique indexes let it through. -/
structure Change where
  apply : Db → Db
  indexed : ∀ db, UniqueIndexes db → UniqueIndexes (apply db)
  recorded : ∀ db, OneRecord db → OneRecord (apply db)

/-- A request on orders, or a change that other code makes. -/
inductive Event where
  | request (request : Request)
  | change (change : Change)

def Event.step (event : Event) (db : Db) : Db :=
  match event with
  | .request r => r.step db
  | .change c => c.apply db

def runEvents (db : Db) (events : List Event) : Db :=
  run (fun db event => Event.step event db) db events

def Indexed (db : Db) : Prop := UniqueIndexes db ∧ OneRecord db

theorem step_indexed (event : Event) (h : Indexed db) : Indexed (event.step db) := by
  cases event with
  | request request => exact ⟨step_uniqueIndexes request h.1, step_oneRecord request h.2⟩
  | change change => exact ⟨change.indexed db h.1, change.recorded db h.2⟩

theorem runEvents_indexed (events : List Event) (h : Indexed db) : Indexed (runEvents db events) :=
  run_invariant (fun _ event h => step_indexed event h) h events

end

/-! ## A warehouse that is closed -/

def twoDepots : Db := { depot with warehouses := ⟨[{ id := 5 }, { id := 6 }], by decide⟩ }

/-- Order `O1` is on its way with battery `B1` of warehouse 5. -/
def sentOut : List Event :=
  [.request (orderOf "O1"),
    .request (.update 2 (operator "/orders/O1/status") "O1" { status := "in_transit" })]

def closeDepot : Change where
  apply db := { db with warehouses := db.warehouses.set { id := 5, isActive := false } }
  indexed _ h := ⟨h.serials, h.shelfBatteries, h.orderBatteries⟩
  recorded _ h := h

def notDelivered : StatusUpdate := { status := "failed", failureReason := some "nobody was in" }

theorem indexed_twoDepots : Indexed twoDepots := by
  refine ⟨⟨?_, ?_, ?_⟩, fun r hr => absurd hr (Table.not_mem_empty r)⟩
  · intro b hb b' hb' _
    rw [List.mem_singleton.mp hb, List.mem_singleton.mp hb']
  · exact fun r hr => absurd hr (Table.not_mem_empty r)
  · exact fun r hr => absurd hr (Table.not_mem_empty r)

theorem unanswered_operator (path : String) (db : Db) : Unanswered 3 (operator path) db :=
  ⟨none, rfl, fun ⟨_, hk, _⟩ => by cases hk⟩

theorem canonical_notDelivered : canonicalOrderStatus notDelivered.status = "failed" := by
  decide +kernel

theorem ending_notDelivered {orders : Table Order} (h : (namedOrder orders "O1").any
    (fun o => canonicalOrderStatus o.status = "in_transit") = true) :
    ∃ order, namedOrder orders "O1" = some order ∧ Ending order notDelivered := by
  obtain ⟨order, hnamed, hstatus⟩ := (Option.any_eq_true _ _).mp h
  exact ⟨order, hnamed, of_decide_eq_true hstatus, canonical_notDelivered ▸ .failed,
    fun _ => by decide +kernel⟩

theorem sentOut_fails : (namedOrder (runEvents twoDepots sentOut).orders "O1").any
      (fun o => canonicalOrderStatus o.status = "in_transit") = true ∧
    ((updateOrderStatus 3 (operator "/orders/O1/status") "O1" notDelivered).call
      (runEvents twoDepots sentOut)).1.isOk = true := by
  decide +kernel

/-- The order is sent out and its warehouse is closed: it cannot fail, though another is open. -/
theorem closed_sentOut_refused :
    (runEvents twoDepots (sentOut ++ [.change closeDepot])).warehouses.rows.any
      Warehouse.isActive = true ∧
    (namedOrder (runEvents twoDepots (sentOut ++ [.change closeDepot])).orders "O1").any
      (fun o => canonicalOrderStatus o.status = "in_transit") = true ∧
    ((updateOrderStatus 3 (operator "/orders/O1/status") "O1" notDelivered).call
      (runEvents twoDepots (sentOut ++ [.change closeDepot]))).1 =
        .error (.http 404 "Target warehouse #5 not found or inactive") := by
  decide +kernel

end WezuBackend.Orders.StuckOrders
