import WezuBackend.Lib.Runs
import WezuBackend.Orders.Effects
import Mathlib.Tactic.Linarith

/-!
# Requests on orders, one at a time

A request is refused, answered from its idempotency key, or carried out.  What it does to the tables
of the fleet is then a completed run of its body, from a store that differs from the present one by
an expired key at most (`step_cases`).  Bodies are taken before their commit.
-/

namespace WezuBackend.Orders.Requests

open Lib.Tables Lib.Atomicity Lib.Atomicity.Tx Core.Base Core.Text Core.Letters Fleet.Model
open Fleet.Transitions Orders.Normalise Orders.Service Orders.Effects

/-! ## Replays -/

theorem uniqueIndexes_of_records {db db' : Db} (h : exceptRecords db' = exceptRecords db)
    (hu : UniqueIndexes db) : UniqueIndexes db' := by
  have hu' : UniqueIndexes (exceptRecords db) := ⟨hu.serials, hu.shelfBatteries, hu.orderBatteries⟩
  rw [← h] at hu'
  exact ⟨hu'.serials, hu'.shelfBatteries, hu'.orderBatteries⟩

theorem answerOf_cases (now : ℕ) (scope : RequestScope) (record : IdempotencyKey) (db : Db)
    (hu : UniqueIndexes db) :
    (∃ e, answerOf now scope record (.fresh db) = (.error e, .fresh db)) ∨
    (now < record.expiresAt ∧
      ∃ data, answerOf now scope record (.fresh db) = (.ok (some data), .fresh db)) ∨
    (record.expiresAt ≤ now ∧ ∃ db₀, exceptRecords db₀ = exceptRecords db ∧
      announcements db₀ = announcements db ∧ answerOf now scope record (.fresh db) =
        (.ok none, .fresh db₀)) := by
  unfold answerOf
  by_cases hexpired : record.expiresAt ≤ now
  · refine .inr (.inr ⟨hexpired,
      { db with idempotencyKeys := db.idempotencyKeys.erase record.id }, rfl, rfl, ?_⟩)
    have hu' : UniqueIndexes { db with idempotencyKeys := db.idempotencyKeys.erase record.id } :=
      @uniqueIndexes_of_records db _ rfl hu
    rw [if_pos hexpired, update_bind]
    exact (commitAll_pure none _).trans (if_pos hu')
  · rw [if_neg hexpired]
    by_cases hsame : record.requestFingerprint = scope.requestFingerprint
    · rw [ensure_bind hsame]
      rcases record.responsePayload with _ | data
      · exact .inl ⟨_, rfl⟩
      · exact .inr (.inl ⟨by omega, data, rfl⟩)
    · exact .inl ⟨_, ensure_bind_not hsame _ _ _⟩

/-- A response is stored under the key, and has not expired. -/
def Stored (now : ℕ) (scope : RequestScope) (db : Db) (key : Option String) : Prop :=
  ∃ k ∈ key, ∃ record ∈ db.idempotencyKeys.find? (isRecordOf scope k), now < record.expiresAt

/-- **The look-up of a key**: it is refused, it finds the response, or there is none, and an expired
one is dropped. -/
theorem getIdempotentReplay_cases (now : ℕ) (scope : RequestScope) (key : Option String) (db : Db) :
    (∃ e, getIdempotentReplay now scope key (.fresh db) = (.error e, .fresh db)) ∨
    (Stored now scope db key ∧
      ∃ data, getIdempotentReplay now scope key (.fresh db) = (.ok (some data), .fresh db)) ∨
    (¬ Stored now scope db key ∧ ∃ db₀, exceptRecords db₀ = exceptRecords db ∧
      announcements db₀ = announcements db ∧
      getIdempotentReplay now scope key (.fresh db) = (.ok none, .fresh db₀)) := by
  rcases key with _ | key
  · refine .inr (.inr ⟨?_, db, rfl, rfl, rfl⟩)
    rintro ⟨k, ⟨⟩, -⟩
  rcases hq : query (.fresh db) with ⟨e | found, s⟩
  · obtain rfl := readOnly_query.eq hq
    exact .inl ⟨e, bind_of_error hq⟩
  obtain ⟨hu, hfound, rfl⟩ := query_ok.mp hq
  obtain rfl : db = found := hfound
  have hstored : Stored now scope db (some key) ↔
      ∃ record ∈ db.idempotencyKeys.find? (isRecordOf scope key), now < record.expiresAt := by
    simp [Stored]
  rw [hstored]
  unfold getIdempotentReplay
  dsimp only
  rw [bind_of_ok hq]
  generalize db.idempotencyKeys.find? (isRecordOf scope key) = record
  rcases record with _ | record
  · exact .inr (.inr ⟨by simp, db, rfl, rfl, rfl⟩)
  · rcases answerOf_cases now scope record db hu with h | ⟨hlt, h⟩ | ⟨hle, h⟩
    · exact .inl h
    · exact .inr (.inl ⟨⟨record, rfl, hlt⟩, h⟩)
    · refine .inr (.inr ⟨?_, h⟩)
      rintro ⟨r, ⟨⟩, hlt⟩
      omega

/-- A stored response answers the request. -/
def Replayed (now : ℕ) (scope : RequestScope) (db : Db) : Prop :=
  ∃ key, normalizeIdempotencyKey scope.idempotencyKey = .ok key ∧ Stored now scope db key

/-- How a call ended: refused, answered from its key, or carried out as a completed run of `x`. -/
inductive Outcome (x : Option String → FleetTx Order) (replayed : Prop) (db : Db) :
    Except Exc Order × Db → Prop
  | refused {e db₀} (h : exceptRecords db₀ = exceptRecords db) :
      Outcome x replayed db (.error e, db₀)
  | answered {data} (h : replayed) : Outcome x replayed db (.ok data, db)
  | carriedOut {key db₀ order t} (hkey : ¬ replayed) (h : exceptRecords db₀ = exceptRecords db)
      (hrun : x key (.fresh db₀) = (.ok order, t)) (hu : UniqueIndexes t.working) :
      Outcome x replayed db (.ok order, t.working)

variable {db : Db}

/-- What a request that commits last does after its key was looked up. -/
def CommitsLast (request x : FleetTx Order) : Prop :=
  ∀ db, (∃ e, request.call db = (.error e, db)) ∨
    ∃ order t, x (.fresh db) = (.ok order, t) ∧ UniqueIndexes t.working ∧
      request.call db = (.ok order, t.working)

theorem answered_call {x request : Option String → FleetTx Order}
    (hx : ∀ key, CommitsLast (request key) (x key)) (now : ℕ) (scope : RequestScope) (db : Db) :
    Outcome x (Replayed now scope db) db ((answered now scope request).call db) := by
  rcases hkey : normalizeIdempotencyKey scope.idempotencyKey with e | key
  · rw [answered, call_eq (lift_bind_error hkey _ _)]
    exact .refused rfl
  have hreplayed : Replayed now scope db ↔ Stored now scope db key := by
    constructor
    · rintro ⟨key', hkey', h⟩
      rw [hkey] at hkey'
      cases hkey'
      exact h
    · exact fun h => ⟨key, hkey, h⟩
  rcases getIdempotentReplay_cases now scope key db with ⟨e, h⟩ | ⟨hstored, data, h⟩ |
    ⟨hstored, db₀, hsame, -, h⟩
  · rw [answered, call_eq ((lift_bind hkey _ _).trans (bind_of_error h))]
    exact .refused rfl
  · unfold call answered
    rw [lift_bind hkey, bind_of_ok h]
    exact .answered (hreplayed.mpr hstored)
  · have hrest : (answered now scope request).call db = (request key).call db₀ := by
      unfold call answered
      rw [lift_bind hkey, bind_of_ok h]
    rw [hrest]
    rcases hx key db₀ with ⟨e, hcall'⟩ | ⟨order, t, hrun, hu, hcall'⟩
    · rw [hcall']
      exact .refused hsame
    · rw [hcall']
      exact .carriedOut (fun h => hstored (hreplayed.mp h)) hsame hrun hu

/-- **A request that returns** and is no replay has found no response under its key, and has run its
body. -/
theorem answered_carriedOut {x request : Option String → FleetTx Order}
    (hx : ∀ key, CommitsLast (request key) (x key)) {now : ℕ} {scope : RequestScope} {db' : Db}
    {order : Order} (hnew : ¬ Replayed now scope db)
    (h : (answered now scope request).call db = (.ok order, db')) :
    ∃ key db₀ t, normalizeIdempotencyKey scope.idempotencyKey = .ok key ∧
      exceptRecords db₀ = exceptRecords db ∧ announcements db₀ = announcements db ∧
      getIdempotentReplay now scope key (.fresh db) = (.ok none, .fresh db₀) ∧
      x key (.fresh db₀) = (.ok order, t) ∧ db' = t.working := by
  rcases hkey : normalizeIdempotencyKey scope.idempotencyKey with e | key
  · rw [answered, call_eq (lift_bind_error hkey _ _)] at h
    cases h
  unfold call answered at h
  simp only [lift_bind hkey] at h
  rcases getIdempotentReplay_cases now scope key db with ⟨e, he⟩ | ⟨hstored, data, hdata⟩ |
    ⟨-, db₀, hsame, hrows, hnone⟩
  · rw [bind_of_error he] at h
    cases h
  · exact absurd ⟨key, hkey, hstored⟩ hnew
  · rw [bind_of_ok hnone] at h
    rcases hx key db₀ with ⟨e, he⟩ | ⟨order', t, hrun, -, hcall⟩
    · cases he.symm.trans h
    · obtain ⟨horder, rfl⟩ := Prod.mk.inj (hcall.symm.trans h)
      obtain rfl := Except.ok.inj horder
      exact ⟨key, db₀, t, rfl, hsame, hrows, hnone, hrun, rfl⟩

theorem commitsLast_committing {x : FleetTx Order} (hx : Tentative x) :
    CommitsLast (committing x) x := fun db => call_committing hx db

/-- The same where what follows the first part is handled by a rollback. -/
theorem commitsLast_handled {α : Type} {x : FleetTx α} {y : α → FleetTx Order}
    {f : Exc → FleetTx Order} (hx : Tentative x) (hy : ∀ a, Tentative (y a))
    (hf : ∀ e s, ∃ e', f e s = (.error e', ⟨s.committed, s.committed⟩)) :
    CommitsLast (x >>= fun a => handle (committing (y a)) f) (x >>= y) := by
  intro db
  rcases h : x (.fresh db) with ⟨e | a, s⟩
  · have hcommitted : s.committed = db := hx.eq h
    refine .inl ⟨e, ?_⟩
    rw [call_eq (bind_of_error h), hcommitted]
  have hcommitted : s.committed = db := hx.eq h
  rcases hrest : y a s with ⟨e | order, t⟩
  · obtain ⟨e', he'⟩ := hf e t
    have hcommitting : committing (y a) s = (.error e, t) := bind_of_error hrest
    refine .inl ⟨e', ?_⟩
    rw [call_eq ((bind_of_ok h).trans ((handle_of_error hcommitting).trans he')),
      (hy a).eq hrest, hcommitted]
  · have hcommitting := committing_of_ok hrest
    by_cases hu : UniqueIndexes t.working
    · rw [if_pos hu] at hcommitting
      refine .inr ⟨order, t, (bind_of_ok h).trans hrest, hu, ?_⟩
      rw [call_eq ((bind_of_ok h).trans (handle_of_ok hcommitting))]
    · rw [if_neg hu] at hcommitting
      obtain ⟨e', he'⟩ := hf .integrityError t
      refine .inl ⟨e', ?_⟩
      rw [call_eq ((bind_of_ok h).trans ((handle_of_error hcommitting).trans he')),
        (hy a).eq hrest, hcommitted]

section

/-! ## The requests -/

theorem readOnly_resolveOrder (orderReference : String) :
    ReadOnly (resolveOrder orderReference) := by
  unfold resolveOrder
  dsimp only
  split_ifs
  · exact readOnly_pure _
  · refine readOnly_look.bind fun db => ?_
    rcases db.orders.get? (strip orderReference) with _ | order
    · exact readOnly_query.bind fun _ => readOnly_pure _
    · exact readOnly_pure _

/-- The order that a reference names: by its id, or else by its tracking number. -/
def namedOrder (orders : Table Order) (orderReference : String) : Option Order :=
  if strip orderReference = "" then none
  else (orders.get? (strip orderReference)).or
    (orders.find? fun o => o.trackingNumber = some (strip orderReference))

variable {order : Order} {orders : Table Order}

theorem namedOrder_mem {orderReference : String}
    (h : namedOrder orders orderReference = some order) : order ∈ orders := by
  unfold namedOrder at h
  split_ifs at h
  rcases Option.or_eq_some_iff.mp h with hid | ⟨-, htracking⟩
  · exact (Table.get?_eq_some.mp hid).1
  · exact Table.find?_mem htracking

variable {s t : Session Db}

theorem resolveOrder_ok {orderReference : String} {found : Option Order}
    (h : resolveOrder orderReference s = (.ok found, t)) :
    t = s ∧ namedOrder s.working.orders orderReference = found := by
  refine ⟨(readOnly_resolveOrder orderReference).eq h, ?_⟩
  unfold resolveOrder at h
  unfold namedOrder
  split_ifs at h ⊢
  · exact (pure_ok.mp h).1
  rw [look_bind] at h
  rcases hget : s.working.orders.get? (strip orderReference) with _ | row
  · rw [hget, bind_ok] at h
    obtain ⟨db, u, hq, h⟩ := h
    obtain ⟨-, rfl, rfl⟩ := query_ok.mp hq
    rw [Option.none_or]
    exact (pure_ok.mp h).1
  · rw [hget] at h
    exact (pure_ok.mp h).1

variable {orderReference detail : String}

theorem resolveOrderOr404_named (h : resolveOrderOr404 orderReference detail s = (.ok order, t)) :
    t = s ∧ namedOrder s.working.orders orderReference = some order := by
  rw [resolveOrderOr404, bind_ok] at h
  obtain ⟨found, u, hfound, h⟩ := h
  obtain ⟨rfl, hnamed⟩ := resolveOrder_ok hfound
  obtain ⟨rfl, rfl⟩ := demand_ok.mp h
  exact ⟨rfl, hnamed⟩

theorem resolveOrderOr404_ok (h : resolveOrderOr404 orderReference detail s = (.ok order, t)) :
    t = s ∧ order ∈ s.working.orders := by
  obtain ⟨hsame, hnamed⟩ := resolveOrderOr404_named h
  exact ⟨hsame, namedOrder_mem hnamed⟩

theorem resolveOrderOr404_fresh (orderReference : String) (hu : UniqueIndexes db) :
    resolveOrderOr404 orderReference "Order not found" (.fresh db) =
      match namedOrder db.orders orderReference with
      | none => (.error (.http 404 "Order not found"), .fresh db)
      | some order => (.ok order, .fresh db) := by
  have hquery : query (.fresh db) = (.ok db, .fresh db) := query_ok.mpr ⟨hu, rfl, rfl⟩
  have hresolve : resolveOrder orderReference (.fresh db) =
      (.ok (namedOrder db.orders orderReference), .fresh db) := by
    unfold resolveOrder namedOrder
    split_ifs
    · rfl
    rw [look_bind, Session.working_fresh]
    rcases db.orders.get? (strip orderReference) with _ | order
    · dsimp only
      rw [bind_of_ok hquery, Option.none_or]
      rfl
    · rfl
  rw [resolveOrderOr404, bind_of_ok hresolve]
  rcases namedOrder db.orders orderReference with _ | order <;> rfl

/-! ### Pieces -/

theorem fixes_respond (now : ℕ) (scope : RequestScope) (key : Option String) (eventType : String)
    (newStatus : Option String) (order : Order) :
    Fixes exceptRecords (respond now scope key eventType newStatus order) := by
  refine (fixes_recordIdempotentResponse _ _ _ _).bind fun _ => ?_
  exact (fixes_emitOrderRealtimeUpdate _ _ _ _ _ _).bind fun _ => (readOnly_pure _).fixes

variable {key : Option String} {now : ℕ} {scope : RequestScope}

theorem respond_ok {eventType : String} {newStatus : Option String} {order order' : Order}
    (h : respond now scope key eventType newStatus order s = (.ok order', t)) :
    order' = order ∧ exceptRecords t.working = exceptRecords s.working := by
  refine ⟨?_, ((fixes_respond now scope key eventType newStatus order).eq h).2⟩
  rw [respond, bind_ok] at h
  obtain ⟨_, _, -, h⟩ := h
  rw [bind_ok] at h
  obtain ⟨_, _, -, h⟩ := h
  exact (pure_ok.mp h).1.symm

theorem fixes_dispatchDriver (now : ℕ) (order : Order) :
    Fixes exceptDrivers (dispatchDriver now order) := by
  refine (readOnly_demand _ _).fixes.bind fun driverId => ?_
  refine (fixes_assertDriverAvailableForOrder _ _ _ _).bind fun _ => ?_
  exact fixes_setDriverStatus _ _ _

theorem fixes_beginDispatch (now : ℕ) (order : Order) (newStatus : String) :
    Fixes exceptDrivers (beginDispatch now order newStatus) :=
  (fixes_dispatchDriver now order).ite (readOnly_pure ()).fixes

theorem fixes_endDelivery (now : ℕ) (order : Order) (newStatus : String) :
    Fixes exceptDrivers (endDelivery now order newStatus) :=
  (fixes_releaseDriverIfIdle now order).ite (readOnly_pure ()).fixes

section

variable [Casing]

/-- What neither batteries nor drivers are written with stays where an order is retried. -/
theorem fixes_retryOrder_of {γ : Type} {g : Db → γ}
    (hrows : ∀ db db', exceptRows db = exceptRows db' → g db = g db')
    (hmoves : ∀ db db', exceptMoves db = exceptMoves db' → g db = g db')
    (hdrivers : ∀ db db', exceptDrivers db = exceptDrivers db' → g db = g db') (now : ℕ)
    (order : Order) : Fixes g (retryOrder now order) := by
  refine ((fixes_getOrderBatteryIds order).of hrows).bind fun batteryIds => ?_
  refine ((fixes_reserveOrderBatteries now order.id batteryIds (some order.id)).of
    hmoves).bind fun _ => ?_
  rcases truthyId order.assignedDriverId with _ | driverId
  · exact (readOnly_pure ()).fixes
  · refine Fixes.bind ((fixes_assertDriverAvailableForOrder _ _ _ _).of hdrivers) ?_
    exact fun _ => (fixes_setDriverStatus _ _ _).of hdrivers

theorem fixes_retryOrder (now : ℕ) (order : Order) : Fixes ordersAndIds (retryOrder now order) :=
  fixes_retryOrder_of
    (fun _ _ h => ordersAndIds_of_both _ _ (ordersAndDrivers_of_rows _ _ h))
    (fun _ _ h => ordersAndIds_of_both _ _ (ordersAndDrivers_of_moves _ _ h))
    ordersAndIds_of_drivers now order

theorem fixes_beginRetry (now : ℕ) (order : Order) (newStatus : String) :
    Fixes ordersAndIds (beginRetry now order newStatus) :=
  (fixes_retryOrder now order).ite (readOnly_pure ()).fixes

/-! ### Status updates -/

theorem fixes_updateLoaded (now : ℕ) (scope : RequestScope) (key : Option String)
    (statusUpdate : StatusUpdate) (loaded : Order) :
    Fixes driverIds (updateLoaded now scope key statusUpdate loaded) := by
  refine (readOnly_lift _).fixes.bind fun _ => ?_
  refine ((fixes_beginDispatch _ _ _).of driverIds_of_drivers).bind fun _ => ?_
  refine (readOnly_ensure _ _).fixes.bind fun _ => ?_
  refine ((fixes_beginRetry _ _ _).of driverIds_of_ordersAndIds).bind fun _ => ?_
  refine Fixes.bind (fixes_update fun _ => rfl) fun _ => ?_
  refine ((fixes_syncBatteriesForOrderStatus _ _ _ _ _).of driverIds_of_both).bind fun _ => ?_
  refine ((fixes_endDelivery _ _ _).of driverIds_of_drivers).bind fun _ => ?_
  exact (fixes_respond _ _ _ _ _ _).of driverIds_of_records

variable {statusUpdate : StatusUpdate}

theorem updateLoaded_ok {loaded order : Order}
    (h : updateLoaded now scope key statusUpdate loaded s = (.ok order, t)) :
    validateStatusTransition loaded (canonicalOrderStatus statusUpdate.status) = .ok () ∧
    order = withStatus now (canonicalOrderStatus statusUpdate.status) statusUpdate loaded ∧
    ∃ s₁ s₂ s₃ s₄,
      beginDispatch now loaded (canonicalOrderStatus statusUpdate.status) s = (.ok (), s₁) ∧
      beginRetry now loaded (canonicalOrderStatus statusUpdate.status) s₁ = (.ok (), s₂) ∧
      syncBatteriesForOrderStatus now order (canonicalOrderStatus statusUpdate.status)
        statusUpdate.failureReason scope.userId
        ⟨s₂.committed, { s₂.working with orders := writeOrder loaded order s₂.working.orders }⟩ =
          (.ok (), s₃) ∧
      endDelivery now order (canonicalOrderStatus statusUpdate.status) s₃ = (.ok (), s₄) ∧
      respond now scope key "order_status_updated" (canonicalOrderStatus statusUpdate.status) order
        s₄ = (.ok order, t) := by
  rw [updateLoaded, bind_ok] at h
  obtain ⟨_, s₀, hlift, h⟩ := h
  obtain ⟨hvalid, rfl⟩ := lift_ok.mp hlift
  rw [bind_ok] at h
  obtain ⟨_, s₁, hdispatch, h⟩ := h
  rw [bind_ok] at h
  obtain ⟨_, s₁', hreason, h⟩ := h
  obtain ⟨-, rfl⟩ := ensure_ok.mp hreason
  rw [bind_ok] at h
  obtain ⟨_, s₂, hretry, h⟩ := h
  rw [saveColumns, update_bind, bind_ok] at h
  obtain ⟨_, s₃, hsync, h⟩ := h
  rw [bind_ok] at h
  obtain ⟨_, s₄, hend, h⟩ := h
  obtain rfl := (respond_ok h).1
  exact ⟨hvalid, rfl, s₁, s₂, s₃, s₄, hdispatch, hretry, hsync, hend, h⟩

theorem updateLoaded_orders {loaded order : Order}
    (h : updateLoaded now scope key statusUpdate loaded s = (.ok order, t)) :
    t.working.orders = writeOrder loaded order s.working.orders := by
  obtain ⟨-, -, s₁, s₂, s₃, s₄, hdispatch, hretry, hsync, hend, hrespond⟩ := updateLoaded_ok h
  have h₁ := (((fixes_beginDispatch _ _ _).of orders_of_drivers).eq hdispatch).2
  have h₂ := congrArg Prod.fst ((fixes_beginRetry _ _ _).eq hretry).2
  have h₃ := (((fixes_syncBatteriesForOrderStatus _ _ _ _ _).of orders_of_both).eq hsync).2
  have h₄ := (((fixes_endDelivery _ _ _).of orders_of_drivers).eq hend).2
  rw [orders_of_records _ _ (respond_ok hrespond).2, h₄, h₃, ← h₁]
  exact congrArg (writeOrder loaded order) h₂

omit [Casing] in
theorem writtenColumn_of_loaded {α : Type} [DecidableEq α] (a b : α) : writtenColumn a b a = b := by
  unfold writtenColumn
  split_ifs with hab
  · exact hab.symm
  · rfl

omit [Casing] in
theorem writeOrder_of_mem {loaded : Order} (h : loaded ∈ orders) (now : ℕ)
    (newStatus : String) (statusUpdate : StatusUpdate) :
    writeOrder loaded (withStatus now newStatus statusUpdate loaded) orders =
      orders.set (withStatus now newStatus statusUpdate loaded) := by
  have hget : orders.get? loaded.id = some loaded := Table.get?_of_mem h
  unfold writeOrder
  rw [hget]
  simp only [writtenOrder, writtenColumn_of_loaded]
  rfl

variable {orderId : String}

theorem updateStatus_named
    (h : updateStatus now scope key orderId statusUpdate s = (.ok order, t)) :
    ∃ loaded, namedOrder s.working.orders orderId = some loaded ∧
      updateLoaded now scope key statusUpdate loaded s = (.ok order, t) := by
  rw [updateStatus, bind_ok] at h
  obtain ⟨loaded, u, hloaded, h⟩ := h
  obtain ⟨rfl, hnamed⟩ := resolveOrderOr404_named hloaded
  exact ⟨loaded, hnamed, h⟩

theorem updateStatus_ok (h : updateStatus now scope key orderId statusUpdate s = (.ok order, t)) :
    ∃ loaded ∈ s.working.orders, updateLoaded now scope key statusUpdate loaded s
      = (.ok order, t) := by
  obtain ⟨loaded, hnamed, h⟩ := updateStatus_named h
  exact ⟨loaded, namedOrder_mem hnamed, h⟩

omit [Casing] in
theorem readOnly_resolveOrderOr404 (orderReference detail : String) :
    ReadOnly (resolveOrderOr404 orderReference detail) :=
  (readOnly_resolveOrder _).bind fun _ => readOnly_demand _ _

theorem fixes_updateStatus (now : ℕ) (scope : RequestScope) (key : Option String)
    (orderId : String) (statusUpdate : StatusUpdate) :
    Fixes driverIds (updateStatus now scope key orderId statusUpdate) :=
  (readOnly_resolveOrderOr404 _ _).fixes.bind fun _ => fixes_updateLoaded _ _ _ _ _

/-! ### Proof of delivery -/

theorem fixes_proveDelivery (now : ℕ) (scope : RequestScope) (key : Option String)
    (orderId : String) (pod : ProofOfDeliveryCreate) :
    Fixes driverIds (proveDelivery now scope key orderId pod) := by
  refine (readOnly_resolveOrderOr404 _ _).fixes.bind fun order => ?_
  refine (readOnly_ensure _ _).fixes.bind fun _ => (readOnly_lift _).fixes.bind fun _ => ?_
  refine (readOnly_lift _).fixes.bind fun _ => Fixes.bind (fixes_update fun _ => rfl) fun _ => ?_
  refine ((fixes_syncBatteriesForOrderStatus _ _ _ _ _).of driverIds_of_both).bind fun _ => ?_
  refine ((fixes_releaseDriverIfIdle _ _).of driverIds_of_drivers).bind fun _ => ?_
  exact (fixes_respond _ _ _ _ _ _).of driverIds_of_records

variable {pod : ProofOfDeliveryCreate}

theorem proveDelivery_ok (h : proveDelivery now scope key orderId pod s = (.ok order, t)) :
    ∃ previous, namedOrder s.working.orders orderId = some previous ∧ acceptsProof previous ∧
      ∃ imageUrl signatureUrl s₁ s₂, order = withProof now pod imageUrl signatureUrl previous ∧
        syncBatteriesForOrderStatus now order "delivered" none scope.userId
          ⟨s.committed, { s.working with orders := s.working.orders.set order }⟩ = (.ok (), s₁) ∧
        releaseDriverIfIdle now order s₁ = (.ok (), s₂) ∧
        respond now scope key "order_status_updated" (some "delivered") order s₂ =
          (.ok order, t) := by
  rw [proveDelivery, bind_ok] at h
  obtain ⟨previous, s₀, hprevious, h⟩ := h
  obtain ⟨rfl, hnamed⟩ := resolveOrderOr404_named hprevious
  rw [bind_ok] at h
  obtain ⟨_, s₀, hensure, h⟩ := h
  obtain ⟨haccepts, rfl⟩ := ensure_ok.mp hensure
  rw [bind_ok] at h
  obtain ⟨imageUrl, s₀, himage, h⟩ := h
  obtain ⟨-, rfl⟩ := lift_ok.mp himage
  rw [bind_ok] at h
  obtain ⟨signatureUrl, s₀, hsignature, h⟩ := h
  obtain ⟨-, rfl⟩ := lift_ok.mp hsignature
  rw [saveOrder, update_bind, bind_ok] at h
  obtain ⟨_, s₁, hsync, h⟩ := h
  rw [bind_ok] at h
  obtain ⟨_, s₂, hrelease, h⟩ := h
  obtain rfl := (respond_ok h).1
  exact ⟨previous, hnamed, haccepts, imageUrl, signatureUrl, s₁, s₂, rfl, hsync, hrelease, h⟩

theorem proveDelivery_orders (h : proveDelivery now scope key orderId pod s = (.ok order, t)) :
    ∃ previous ∈ s.working.orders, acceptsProof previous ∧
      (∃ imageUrl signatureUrl, order = withProof now pod imageUrl signatureUrl previous) ∧
      t.working.orders = s.working.orders.set order := by
  obtain ⟨previous, hnamed, haccepts, imageUrl, signatureUrl, s₁, s₂, horder, hsync, hrelease,
    hrespond⟩ := proveDelivery_ok h
  refine ⟨previous, namedOrder_mem hnamed, haccepts, ⟨imageUrl, signatureUrl, horder⟩, ?_⟩
  have h₁ := (((fixes_syncBatteriesForOrderStatus _ _ _ _ _).of orders_of_both).eq hsync).2
  have h₂ := (((fixes_releaseDriverIfIdle _ _).of orders_of_drivers).eq hrelease).2
  exact (orders_of_records _ _ (respond_ok hrespond).2).trans (h₂.trans h₁)

end

/-! ### Driver assignment -/

theorem fixes_takeOver_of {γ : Type} {f : Db → γ}
    (horders : ∀ (db : Db) orders, f { db with orders } = f db)
    (hdrivers : ∀ db db', exceptDrivers db = exceptDrivers db' → f db = f db')
    (now driverId : ℕ) (order : Order) : Fixes f (takeOver now driverId order) := by
  refine readOnly_query.fixes.bind fun db => ?_
  rcases latestActiveOrderOf db driverId order.id with _ | conflicting
  · exact (readOnly_pure _).fixes
  · refine (readOnly_ensure _ _).fixes.bind fun _ =>
      Fixes.bind (fixes_update fun db => horders db _) fun _ => ?_
    refine ((fixes_setDriverStatus _ _ _).of hdrivers).bind fun _ => ?_
    exact (readOnly_pure _).fixes

theorem fixes_takeOver (now driverId : ℕ) (order : Order) :
    Fixes driverIds (takeOver now driverId order) :=
  fixes_takeOver_of (fun _ _ => rfl) driverIds_of_drivers _ _ _

theorem fixes_emitReassignment (now : ℕ) (scope : RequestScope) (key : Option String)
    (reassignedFrom : Option Order) :
    Fixes exceptRecords (emitReassignment now scope key reassignedFrom) := by
  rcases reassignedFrom with _ | other
  · exact (readOnly_pure ()).fixes
  · exact fixes_emitOrderRealtimeUpdate _ _ _ _ _ _

theorem fixes_assignmentRecords (now : ℕ) (scope : RequestScope) (key : Option String)
    (order : Order) (reassignedFrom : Option Order) :
    Fixes exceptRecords (do
      recordIdempotentResponse now scope key order
      emitReassignment now scope key reassignedFrom
      emitOrderRealtimeUpdate now "order_driver_assigned" order scope.userId none key
      return order) := by
  refine (fixes_recordIdempotentResponse _ _ _ _).bind fun _ => ?_
  refine (fixes_emitReassignment _ _ _ _).bind fun _ => ?_
  exact (fixes_emitOrderRealtimeUpdate _ _ _ _ _ _).bind fun _ => (readOnly_pure _).fixes

theorem fixes_confirmDriver (now : ℕ) (scope : RequestScope) (key : Option String)
    (order : Order) : Fixes driverIds (confirmDriver now scope key order) :=
  Fixes.bind (fixes_update fun _ => rfl) fun _ =>
    (fixes_respond _ _ _ _ _ _).of driverIds_of_records

theorem fixes_changeDriver (now : ℕ) (scope : RequestScope) (key : Option String)
    (order : Order) (driverId : ℕ) :
    Fixes driverIds (changeDriver now scope key order driverId) := by
  have hassert := fun check => (fixes_assertDriverAvailableForOrder driverId (some order.id) false
    check).of driverIds_of_drivers
  refine (hassert false).bind fun _ => (fixes_takeOver _ _ _).bind fun reassignedFrom => ?_
  refine (hassert true).bind fun _ => Fixes.bind (fixes_update fun _ => rfl) fun _ => ?_
  refine ((fixes_setDriverStatus _ _ _).of driverIds_of_drivers).bind fun _ => ?_
  refine ((fixes_releasePreviousDriver _ _ _).of driverIds_of_drivers).bind fun _ => ?_
  exact (fixes_assignmentRecords now scope key _ reassignedFrom).of driverIds_of_records

theorem fixes_assignTo (now : ℕ) (scope : RequestScope) (key : Option String)
    (orderId driverReference : String) :
    Fixes driverIds (assignTo now scope key orderId driverReference) := by
  refine (readOnly_resolveOrder _).fixes.bind fun found => ?_
  refine (readOnly_demand _ _).fixes.bind fun order => ?_
  refine (readOnly_ensure _ _).fixes.bind fun _ => readOnly_query.fixes.bind fun db => ?_
  refine (readOnly_demand _ _).fixes.bind fun driver => ?_
  exact (fixes_confirmDriver _ _ _ _).ite (fixes_changeDriver _ _ _ _ _)

theorem assignTo_ok {orderId driverReference : String}
    (h : assignTo now scope key orderId driverReference s = (.ok order, t)) :
    ∃ previous driver, namedOrder s.working.orders orderId = some previous ∧
      canonicalOrderStatus previous.status ∉ terminalStatuses ∧
      resolveDriver s.working driverReference = some driver ∧
      ((previous.assignedDriverId = some driver.id ∧
          confirmDriver now scope key previous s = (.ok order, t)) ∨
        (previous.assignedDriverId ≠ some driver.id ∧
          changeDriver now scope key previous driver.id s = (.ok order, t))) := by
  rw [assignTo, bind_ok] at h
  obtain ⟨found, s₀, hfound, h⟩ := h
  obtain ⟨rfl, hnamed⟩ := resolveOrder_ok hfound
  rw [bind_ok] at h
  obtain ⟨previous, s₀, hprevious, h⟩ := h
  obtain ⟨rfl, rfl⟩ := demand_ok.mp hprevious
  rw [bind_ok] at h
  obtain ⟨_, s₀, hensure, h⟩ := h
  obtain ⟨hstatus, rfl⟩ := ensure_ok.mp hensure
  rw [bind_ok] at h
  obtain ⟨db, s₀, hq, h⟩ := h
  obtain ⟨-, rfl, rfl⟩ := query_ok.mp hq
  rw [bind_ok] at h
  obtain ⟨driver, s₀, hdemand, h⟩ := h
  obtain ⟨hdriver, rfl⟩ := demand_ok.mp hdemand
  refine ⟨previous, driver, hnamed, hstatus, hdriver, ?_⟩
  split_ifs at h with hsame
  · exact .inl ⟨hsame, h⟩
  · exact .inr ⟨hsame, h⟩

theorem confirmDriver_ok {previous order : Order}
    (h : confirmDriver now scope key previous s = (.ok order, t)) :
    order = markOrderAssignedIfPending now previous ∧
      exceptRecords t.working =
        exceptRecords { s.working with orders := s.working.orders.set order } := by
  rw [confirmDriver, saveOrder, update_bind] at h
  obtain ⟨horder, hrecords⟩ := respond_ok h
  refine ⟨horder, ?_⟩
  rw [horder]
  exact hrecords

def withDriver (now driverId : ℕ) (order : Order) : Order :=
  markOrderAssignedIfPending now { order with assignedDriverId := some driverId, updatedAt := now }

theorem changeDriver_ok {now driverId : ℕ} {previous order : Order}
    (h : changeDriver now scope key previous driverId s = (.ok order, t)) :
    order = withDriver now driverId previous ∧ ∃ reassignedFrom s₁ s₂ s₃ s₄ s₅,
      assertDriverAvailableForOrder driverId (some previous.id) false false s = (.ok (), s₁) ∧
      takeOver now driverId previous s₁ = (.ok reassignedFrom, s₂) ∧
      assertDriverAvailableForOrder driverId (some previous.id) false true s₂ = (.ok (), s₃) ∧
      setDriverStatus now driverId "busy"
        ⟨s₃.committed, { s₃.working with orders := s₃.working.orders.set order }⟩ = (.ok (), s₄) ∧
      releasePreviousDriver now order previous.assignedDriverId s₄ = (.ok (), s₅) ∧
      exceptRecords t.working = exceptRecords s₅.working := by
  rw [changeDriver, bind_ok] at h
  obtain ⟨_, s₁, hfirst, h⟩ := h
  rw [bind_ok] at h
  obtain ⟨reassignedFrom, s₂, htake, h⟩ := h
  rw [bind_ok] at h
  obtain ⟨_, s₃, hsecond, h⟩ := h
  rw [saveOrder, update_bind, bind_ok] at h
  obtain ⟨_, s₄, hbusy, h⟩ := h
  rw [bind_ok] at h
  obtain ⟨_, s₅, hrelease, h⟩ := h
  have hrecords := ((fixes_assignmentRecords now scope key _ reassignedFrom).eq h).2
  rw [bind_ok] at h
  obtain ⟨_, _, -, h⟩ := h
  rw [bind_ok] at h
  obtain ⟨_, _, -, h⟩ := h
  rw [bind_ok] at h
  obtain ⟨_, _, -, h⟩ := h
  have horder := (pure_ok.mp h).1
  rw [← horder]
  exact ⟨rfl, reassignedFrom, s₁, s₂, s₃, s₄, s₅, hfirst, htake, hsecond, hbusy, hrelease, hrecords⟩

/-! ### Creation -/

/-- The new order, before it takes its driver. -/
structure FreshOrder (payload : OrderCreate) (order : Order) : Prop where
  status : order.status = "pending"
  assignedDriverId : order.assignedDriverId = payload.assignedDriverId
  type : order.type = "delivery"
  totalValue : 0 ≤ order.totalValue
  refundStatus : order.refundStatus = "none"

variable {value : ℚ}

theorem numeric122_nonneg (h : 0 ≤ value) : 0 ≤ numeric122 value := by
  unfold numeric122
  have hnum : 0 ≤ (value * 100 + 1 / 2).num := Rat.num_nonneg.mpr (by linarith)
  exact Int.ediv_nonneg hnum (Int.natCast_nonneg _)

theorem normalizeTotalValue_ok {raw : Option ℚ}
    (h : normalizeTotalValue raw = .ok value) : 0 ≤ value := by
  unfold normalizeTotalValue at h
  dsimp only at h
  split_ifs at h with hneg
  obtain rfl := Except.ok.inj h
  exact not_lt.mp hneg

theorem fixes_assertNewDriver (driverId : Option ℕ) :
    Fixes exceptDrivers (assertNewDriver driverId) := by
  rcases driverId with _ | driverId
  · exact (readOnly_pure ()).fixes
  · exact fixes_assertDriverAvailableForOrder _ _ _ _

theorem fixes_takeDriver (now : ℕ) (order : Order) :
    Fixes exceptDrivers (takeDriver now order) := by
  unfold takeDriver
  rcases order.assignedDriverId with _ | driverId
  · exact (readOnly_pure _).fixes
  · exact (fixes_setDriverStatus _ _ _).bind fun _ => (readOnly_pure _).fixes

theorem insertOrder_of_new (h : orders.get? order.id = none) :
    insertOrder orders order = orders.insert order (Table.get?_eq_none.mp h) := by
  unfold insertOrder
  split
  · next heq => rw [h] at heq; cases heq
  · rfl

theorem mem_insertOrder {order x : Order} (h : orders.get? order.id = none) :
    x ∈ insertOrder orders order ↔ x ∈ orders ∨ x = order := by
  rw [insertOrder_of_new h]
  exact Table.mem_insert

theorem fixes_addOrder (order : Order) : Fixes driverIds (addOrder order) :=
  readOnly_look.fixes.bind fun _ => (readOnly_ensure _ _).fixes.bind fun _ =>
    Fixes.bind (fixes_update fun _ => rfl) fun _ => readOnly_flush.fixes

theorem addOrder_ok {u : Unit}
    (h : addOrder order s = (.ok u, t)) : s.working.orders.get? order.id = none ∧
      t = ⟨s.committed, { s.working with orders := insertOrder s.working.orders order }⟩ := by
  rw [addOrder, look_bind, bind_ok] at h
  obtain ⟨_, s₀, hensure, h⟩ := h
  obtain ⟨hnew, rfl⟩ := ensure_ok.mp hensure
  rw [update_bind] at h
  exact ⟨hnew, (flush_ok.mp h).2.symm⟩

theorem raiseCreateOrderIntegrityError_eq (e : Exc) (s : Session Db) :
    ∃ e', (raiseCreateOrderIntegrityError e : FleetTx Order) s =
      (.error e', ⟨s.committed, s.committed⟩) := by
  unfold raiseCreateOrderIntegrityError
  rw [look_bind, show (rollback >>= _ : FleetTx Order) s = _ from rfl]
  split_ifs <;> exact ⟨_, rfl⟩

section

variable [Casing]

theorem readOnly_freeTrackingNumber (payload : OrderCreate) (orderId : String) :
    ReadOnly (freeTrackingNumber payload orderId) :=
  (readOnly_lift _).bind fun _ => readOnly_query.bind fun _ => (readOnly_ensure _ _).bind fun _ =>
    readOnly_pure _

theorem readOnly_newOrder (now : ℕ) (payload : OrderCreate) (orderId : String) :
    ReadOnly (newOrder now payload orderId) := by
  refine (readOnly_lift _).bind fun _ => (readOnly_lift _).bind fun _ => ?_
  refine (readOnly_lift _).bind fun _ => (readOnly_lift _).bind fun _ => ?_
  refine (readOnly_freeTrackingNumber _ _).bind fun _ => (readOnly_lift _).bind fun _ => ?_
  refine (readOnly_lift _).bind fun _ => (readOnly_ensure _ _).bind fun _ => ?_
  refine (readOnly_ensure _ _).bind fun _ => (readOnly_lift _).bind fun place => ?_
  refine (readOnly_ensure _ _).bind fun _ => (readOnly_ensure _ _).bind fun _ => ?_
  exact (readOnly_ensure _ _).bind fun _ => readOnly_pure _

variable {payload : OrderCreate}

theorem newOrder_ok {orderId : String} (h : newOrder now payload orderId s = (.ok order, t)) :
    t = s ∧ order.id = orderId ∧ FreshOrder payload order := by
  refine ⟨(readOnly_newOrder now payload orderId).eq h, ?_⟩
  simp only [newOrder, bind_ok, lift_ok] at h
  obtain ⟨_, _, -, _, _, -, _, _, -, _, _, -, _, _, -, _, _, -, value, _, ⟨hvalue, -⟩, h⟩ := h
  obtain ⟨_, _, -, _, _, -, place, _, -, _, _, -, _, _, -, _, _, -, h⟩ := h
  obtain ⟨rfl, -⟩ := pure_ok.mp h
  exact ⟨rfl, rfl, rfl, rfl, numeric122_nonneg (normalizeTotalValue_ok hvalue), rfl⟩

theorem fixes_prepareOrder (now : ℕ) (payload : OrderCreate) :
    Fixes driverIds (prepareOrder now payload) := by
  refine (readOnly_ensure _ _).fixes.bind fun _ => readOnly_look.fixes.bind fun db => ?_
  refine (readOnly_ensure _ _).fixes.bind fun _ =>
    (readOnly_newOrder _ _ _).fixes.bind fun order => ?_
  refine ((fixes_assertNewDriver _).of driverIds_of_drivers).bind fun _ => ?_
  refine (readOnly_lift _).fixes.bind fun ids => ?_
  refine ((fixes_reserveOrderBatteries _ _ _ _).of driverIds_of_moves).bind fun _ => ?_
  refine ((fixes_takeDriver _ _).of driverIds_of_drivers).bind fun _ => (readOnly_pure _).fixes

variable {ids : List String}

theorem prepareOrder_ok (h : prepareOrder now payload s = (.ok (order, ids), t)) :
    requestedBatteryIds payload = .ok ids ∧ ∃ fresh s₁ s₂, FreshOrder payload fresh ∧
      s.working.orders.get? fresh.id = none ∧
      assertNewDriver payload.assignedDriverId s = (.ok (), s₁) ∧
      reserveOrderBatteries now fresh.id ids none s₁ = (.ok (), s₂) ∧
      takeDriver now { fresh with assignedBatteryIds := .ofList ids } s₂ = (.ok order, t) := by
  rw [prepareOrder, bind_ok] at h
  obtain ⟨_, s₀, hunits, h⟩ := h
  obtain ⟨-, rfl⟩ := ensure_ok.mp hunits
  rw [look_bind, bind_ok] at h
  obtain ⟨_, s₀, hensure, h⟩ := h
  obtain ⟨hnew, rfl⟩ := ensure_ok.mp hensure
  rw [bind_ok] at h
  obtain ⟨fresh, s₀, hfresh, h⟩ := h
  obtain ⟨rfl, hid, hfresh⟩ := newOrder_ok hfresh
  rw [bind_ok] at h
  obtain ⟨_, s₁, hdriver, h⟩ := h
  rw [bind_ok] at h
  obtain ⟨ids', s₀, hlift, h⟩ := h
  obtain ⟨hids, rfl⟩ := lift_ok.mp hlift
  rw [bind_ok] at h
  obtain ⟨_, s₂, hreserve, h⟩ := h
  rw [bind_ok] at h
  obtain ⟨order', s₃, htake, h⟩ := h
  obtain ⟨hpair, rfl⟩ := pure_ok.mp h
  obtain ⟨rfl, rfl⟩ := Prod.mk.inj hpair
  rw [← hid] at hnew hreserve
  exact ⟨hids, fresh, s₁, s₂, hfresh, hnew, hdriver, hreserve, htake⟩

theorem fixes_storeOrder (now : ℕ) (scope : RequestScope) (key : Option String) (order : Order)
    (ids : List String) : Fixes driverIds (storeOrder now scope key order ids) := by
  refine (readOnly_ensure _ _).fixes.bind fun _ => (fixes_addOrder _).bind fun _ => ?_
  refine ((fixes_persistOrderBatteries _ _).of driverIds_of_rows).bind fun _ => ?_
  exact (fixes_respond _ _ _ _ _ _).of driverIds_of_records

theorem storeOrder_ok {order order' : Order}
    (h : storeOrder now scope key order ids s = (.ok order', t)) :
    order' = order ∧ s.working.orders.get? order.id = none ∧ ∃ s₁,
      persistOrderBatteries order.id ids
        ⟨s.committed, { s.working with orders := insertOrder s.working.orders order }⟩ =
          (.ok (), s₁) ∧
      exceptRecords t.working = exceptRecords s₁.working := by
  rw [storeOrder, bind_ok] at h
  obtain ⟨_, s₀, hensure, h⟩ := h
  obtain ⟨-, rfl⟩ := ensure_ok.mp hensure
  rw [bind_ok] at h
  obtain ⟨_, s₀, hadd, h⟩ := h
  obtain ⟨hnew, rfl⟩ := addOrder_ok hadd
  rw [bind_ok] at h
  obtain ⟨_, s₁, hrows, h⟩ := h
  obtain ⟨horder, hrecords⟩ := respond_ok h
  exact ⟨horder, hnew, s₁, hrows, hrecords⟩

theorem commitsLast_create (now : ℕ) (scope : RequestScope) (payload : OrderCreate)
    (key : Option String) :
    CommitsLast (do
      let prepared ← prepareOrder now payload
      handle (do
        let order ← storeOrder now scope key prepared.1 prepared.2
        commitAll
        return order) raiseCreateOrderIntegrityError)
      (do
        let prepared ← prepareOrder now payload
        storeOrder now scope key prepared.1 prepared.2) :=
  commitsLast_handled (fixes_prepareOrder now payload).tentative
    (fun prepared => (fixes_storeOrder now scope key prepared.1 prepared.2).tentative)
    raiseCreateOrderIntegrityError_eq

/-! ### Returns -/

theorem fixes_returnDelivered (now : ℕ) (scope : RequestScope) (key : Option String)
    (returnId orderId reason : String) :
    Fixes driverIds (returnDelivered now scope key returnId orderId reason) := by
  refine (readOnly_resolveOrderOr404 _ _).fixes.bind fun original => ?_
  refine (readOnly_ensure _ _).fixes.bind fun _ => readOnly_query.fixes.bind fun db => ?_
  refine (readOnly_ensure _ _).fixes.bind fun _ => ?_
  refine ((fixes_getOrderBatteryIds _).of driverIds_of_rows).bind fun ids => ?_
  refine (readOnly_fetchAssigned _).fixes.bind fun batteries => Fixes.bind ?_ fun _ => ?_
  · exact fixes_forM
      (fun battery => (fixes_addLifecycleEvent _ _ _ _ _).of driverIds_of_moves) batteries
  refine (fixes_addOrder _).bind fun _ => ?_
  refine ((fixes_persistOrderBatteries _ _).of driverIds_of_rows).bind fun _ => ?_
  refine ((fixes_recordIdempotentResponse _ _ _ _).of driverIds_of_records).bind fun _ => ?_
  exact (readOnly_pure _).fixes

theorem returnDelivered_ok {returnId orderId reason : String}
    (h : returnDelivered now scope key returnId orderId reason s = (.ok order, t)) :
    ∃ (original : Order) (ids : List String) (s₁ s₂ s₃ : Session Db),
      resolveOrderOr404 orderId "Original order not found" s = (.ok original, s) ∧
      canonicalOrderStatus original.status = "delivered" ∧
        openReturnOf s.working original.id = none ∧
      getOrderBatteryIds original s = (.ok ids, s₁) ∧
      order = returnOrder now returnId reason original ids ∧
      s₁.working.orders.get? order.id = none ∧ exceptMoves s₂.working = exceptMoves s₁.working ∧
      persistOrderBatteries order.id ids
        ⟨s₂.committed, { s₂.working with orders := insertOrder s₂.working.orders order }⟩ =
          (.ok (), s₃) ∧
      exceptRecords t.working = exceptRecords s₃.working := by
  rw [returnDelivered, bind_ok] at h
  obtain ⟨original, s₀, horiginal, h⟩ := h
  obtain rfl := (readOnly_resolveOrderOr404 _ _).eq horiginal
  rw [bind_ok] at h
  obtain ⟨_, s₀, hensure, h⟩ := h
  obtain ⟨hdelivered, rfl⟩ := ensure_ok.mp hensure
  rw [bind_ok] at h
  obtain ⟨db, s₀, hq, h⟩ := h
  obtain ⟨-, rfl, rfl⟩ := query_ok.mp hq
  rw [bind_ok] at h
  obtain ⟨_, s₀, hopen, h⟩ := h
  obtain ⟨hnone, rfl⟩ := ensure_ok.mp hopen
  rw [bind_ok] at h
  obtain ⟨ids, s₁, hids, h⟩ := h
  rw [bind_ok] at h
  obtain ⟨batteries, s₀, hfetch, h⟩ := h
  obtain rfl := (readOnly_fetchAssigned _).eq hfetch
  rw [bind_ok] at h
  obtain ⟨_, s₂, hevents, h⟩ := h
  have hmoves := ((fixes_forM (fun battery : Battery => fixes_addLifecycleEvent now battery.id
    "return_initiated"
      (some (s!"Return initiated for order {original.id}. Return ID: {returnId}. " ++
        s!"Reason: {reason}")) scope.userId) batteries).eq hevents).2
  rw [bind_ok] at h
  obtain ⟨_, s₀', hadd, h⟩ := h
  obtain ⟨hnew, rfl⟩ := addOrder_ok hadd
  rw [bind_ok] at h
  obtain ⟨_, s₃, hrows, h⟩ := h
  rw [bind_ok] at h
  obtain ⟨_, s₄, hrecord, h⟩ := h
  obtain ⟨rfl, rfl⟩ := pure_ok.mp h
  have horders : s₂.working.orders = s₀.working.orders :=
    orders_of_moves _ _ hmoves
  rw [horders] at hnew
  exact ⟨original, ids, s₀, s₂, s₃, horiginal, hdelivered, hnone, hids, rfl, hnew, hmoves, hrows,
    ((fixes_recordIdempotentResponse _ _ _ _).eq hrecord).2⟩

theorem returnDelivered_orders {returnId orderId reason : String}
    (h : returnDelivered now scope key returnId orderId reason s = (.ok order, t)) :
    ∃ original ∈ s.working.orders, (∃ ids, order = returnOrder now returnId reason original ids) ∧
      s.working.orders.get? order.id = none ∧
      t.working.orders = insertOrder s.working.orders order := by
  obtain ⟨original, ids, s₁, s₂, s₃, horiginal, -, -, hread, horder, hnew, hmoves, hrows,
    hrecords⟩ := returnDelivered_ok h
  have h₁ := (((fixes_getOrderBatteryIds original).of orders_of_rows).eq hread).2
  have h₂ : s₂.working.orders = s₁.working.orders := orders_of_moves _ _ hmoves
  have h₃ := (((fixes_persistOrderBatteries _ _).of orders_of_rows).eq hrows).2
  rw [h₁] at hnew
  refine ⟨original, (resolveOrderOr404_ok horiginal).2, ⟨ids, horder⟩, hnew, ?_⟩
  rw [orders_of_records _ _ hrecords, h₃]
  show insertOrder s₂.working.orders order = _
  rw [h₂, h₁]

end

end

/-! ## Requests -/

inductive Request where
  | create (now : ℕ) (scope : RequestScope) (payload : OrderCreate)
  | update (now : ℕ) (scope : RequestScope) (orderId : String) (statusUpdate : StatusUpdate)
  | prove (now : ℕ) (scope : RequestScope) (orderId : String) (pod : ProofOfDeliveryCreate)
  | assign (now : ℕ) (scope : RequestScope) (orderId : String) (driverReferences : List DriverToken)
  | giveBack (now : ℕ) (scope : RequestScope) (returnId orderId reason : String)

namespace Request

def now : Request → ℕ
  | create now .. | update now .. | prove now .. | assign now .. | giveBack now .. => now

def scope : Request → RequestScope
  | create _ scope _ | update _ scope _ _ | prove _ scope _ _ | assign _ scope _ _
  | giveBack _ scope _ _ _ => scope

/-- The same request, when it comes later. -/
def again (later : ℕ) : Request → Request
  | create _ scope payload => create later scope payload
  | update _ scope orderId statusUpdate => update later scope orderId statusUpdate
  | prove _ scope orderId pod => prove later scope orderId pod
  | assign _ scope orderId driverReferences => assign later scope orderId driverReferences
  | giveBack _ scope returnId orderId reason => giveBack later scope returnId orderId reason

theorem again_now (request : Request) : request.again request.now = request := by
  cases request <;> rfl

section

variable [Casing]

def program : Request → FleetTx Order
  | create now scope payload => createOrder now scope payload
  | update now scope orderId statusUpdate => updateOrderStatus now scope orderId statusUpdate
  | prove now scope orderId pod => submitProofOfDelivery now scope orderId pod
  | assign now scope orderId driverReferences => assignDriver now scope orderId driverReferences
  | giveBack now scope returnId orderId reason => initiateReturn now scope returnId orderId reason

/-- What a request does once its key was looked up, before its commit. -/
def body (key : Option String) : Request → FleetTx Order
  | create now scope payload => do
    let prepared ← prepareOrder now payload
    storeOrder now scope key prepared.1 prepared.2
  | update now scope orderId statusUpdate => updateStatus now scope key orderId statusUpdate
  | prove now scope orderId pod => proveDelivery now scope key orderId pod
  | assign now scope orderId driverReferences => do
    let driverReference ← lift (extractDriverReference driverReferences)
    assignTo now scope key orderId driverReference
  | giveBack now scope returnId orderId reason =>
    returnDelivered now scope key returnId orderId reason

/-- The request is answered from its idempotency key. -/
def Replays (db : Db) : Request → Prop
  | create now scope _ => Replayed now scope db
  | update now scope _ _ => Replayed now scope db
  | prove now scope _ _ => Replayed now scope db
  | assign now scope _ _ => Replayed now scope db
  | giveBack now scope _ _ _ => Replayed now scope db

omit [Casing] in
theorem replays_eq {request : Request} {db : Db} :
    request.Replays db = Replayed request.now request.scope db := by
  cases request <;> rfl

def step (request : Request) (db : Db) : Db := (request.program.call db).2

/-- **Whenever a request comes**, it is refused before its key is looked up, or it is answered from
its key, and else carried out and committed last. -/
theorem program_again (request : Request) :
    (∃ e, ∀ later s, (request.again later).program s = (.error e, s)) ∨
    ∃ f : ℕ → Option String → FleetTx Order,
      (∀ later, (request.again later).program = answered later request.scope (f later)) ∧
      ∀ later key, CommitsLast (f later key) ((request.again later).body key) := by
  cases request with
  | create now scope payload =>
    exact .inr ⟨_, fun later => rfl, fun later key => commitsLast_create later scope payload key⟩
  | update now scope orderId statusUpdate =>
    exact .inr ⟨_, fun later => rfl, fun later key => commitsLast_committing
      (fixes_updateStatus later scope key orderId statusUpdate).tentative⟩
  | prove now scope orderId pod =>
    exact .inr ⟨_, fun later => rfl, fun later key => commitsLast_committing
      (fixes_proveDelivery later scope key orderId pod).tentative⟩
  | assign now scope orderId driverReferences =>
    rcases hreference : extractDriverReference driverReferences with e | driverReference
    · exact .inl ⟨e, fun later s => lift_bind_error hreference _ s⟩
    · refine .inr ⟨fun later key => committing (assignTo later scope key orderId driverReference),
        fun later => funext fun s => lift_bind hreference _ s, fun later key => ?_⟩
      have hbody : (Request.again later (.assign now scope orderId driverReferences)).body key =
          assignTo later scope key orderId driverReference :=
        funext fun s => lift_bind hreference (fun r => assignTo later scope key orderId r) s
      rw [hbody]
      exact commitsLast_committing
        (fixes_assignTo later scope key orderId driverReference).tentative
  | giveBack now scope returnId orderId reason =>
    exact .inr ⟨_, fun later => rfl, fun later key => commitsLast_committing
      (fixes_returnDelivered later scope key returnId orderId reason).tentative⟩

theorem program_cases (request : Request) : (∃ e, ∀ s, request.program s = (.error e, s)) ∨
    ∃ f, request.program = answered request.now request.scope f ∧
      ∀ key, CommitsLast (f key) (request.body key) := by
  rcases request.program_again with ⟨e, h⟩ | ⟨f, h, hlast⟩
  · replace h := h request.now
    rw [again_now] at h
    exact .inl ⟨e, h⟩
  · replace h := h request.now
    replace hlast := hlast request.now
    rw [again_now] at h hlast
    exact .inr ⟨f request.now, h, hlast⟩

theorem call_outcome (request : Request) (db : Db) :
    Outcome (fun key => request.body key) (request.Replays db) db (request.program.call db) := by
  rcases request.program_cases with ⟨e, h⟩ | ⟨f, h, hlast⟩
  · rw [call_eq (h _)]
    exact .refused rfl
  · rw [h, replays_eq]
    exact answered_call hlast _ _ _

theorem fixes_body (request : Request) (key : Option String) :
    Fixes driverIds (request.body key) := by
  cases request with
  | create now scope payload =>
    exact (fixes_prepareOrder _ _).bind fun prepared => fixes_storeOrder _ _ _ _ _
  | update now scope orderId statusUpdate => exact fixes_updateStatus _ _ _ _ _
  | prove now scope orderId pod => exact fixes_proveDelivery _ _ _ _ _
  | assign now scope orderId driverReferences =>
    exact (readOnly_lift _).fixes.bind fun _ => fixes_assignTo _ _ _ _ _
  | giveBack now scope returnId orderId reason => exact fixes_returnDelivered _ _ _ _ _ _

/-- **A step**: nothing but records of requests has changed, or the body of the request ran. -/
theorem step_cases (request : Request) (db : Db) :
    exceptRecords (request.step db) = exceptRecords db ∨
      ∃ key db₀ order t, ¬ request.Replays db ∧ exceptRecords db₀ = exceptRecords db ∧
        request.body key (.fresh db₀) = (.ok order, t) ∧ request.step db = t.working := by
  have h := request.call_outcome db
  unfold step
  generalize request.program.call db = r at h
  cases h with
  | refused h => exact .inl h
  | answered h => exact .inl rfl
  | carriedOut hnew h hrun _ => exact .inr ⟨_, _, _, _, hnew, h, hrun, rfl⟩

end

end Request

end WezuBackend.Orders.Requests
