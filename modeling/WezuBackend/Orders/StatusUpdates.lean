import WezuBackend.Orders.Records

/-!
# Which status updates return

A status update is a chain of checks and moves, and then a response that is recorded and announced.
Once the batteries have moved nothing is refused any more, so that a new request returns exactly if
the checks and the moves do (`update_returns_iff`).
-/

namespace WezuBackend.Orders.StatusUpdates

open Lib.Atomicity Lib.Atomicity.Tx Core.Base Core.Letters Fleet.Model Fleet.Transitions
open Orders.Normalise Orders.Service Orders.Effects Orders.Requests Orders.Records

/-! ## New requests -/

/-- The key of the request can be read, and no stored response answers it. -/
def Unanswered (now : ℕ) (scope : RequestScope) (db : Db) : Prop :=
  ∃ key, normalizeIdempotencyKey scope.idempotencyKey = .ok key ∧ ¬ Stored now scope db key

variable {now : ℕ} {scope : RequestScope} {db : Db}

theorem replay_of_unstored {key : Option String} (hu : UniqueIndexes db)
    (hnot : ¬ Stored now scope db key) :
    ∃ db₀, getIdempotentReplay now scope key (.fresh db) = (.ok none, .fresh db₀) := by
  rcases key with _ | key
  · exact ⟨db, rfl⟩
  have hquery : query (.fresh db) = (.ok db, .fresh db) := query_ok.mpr ⟨hu, rfl, rfl⟩
  unfold getIdempotentReplay
  dsimp only
  rw [bind_of_ok hquery]
  rcases hfound : db.idempotencyKeys.find? (isRecordOf scope key) with _ | record
  · exact ⟨db, rfl⟩
  have hexpired : record.expiresAt ≤ now := by
    by_contra hlive
    exact hnot ⟨key, rfl, record, hfound, not_le.mp hlive⟩
  set erased : Db := { db with idempotencyKeys := db.idempotencyKeys.erase record.id } with herased
  have hu' : UniqueIndexes erased := @uniqueIndexes_of_records db _ rfl hu
  refine ⟨erased, ?_⟩
  show answerOf now scope record (.fresh db) = _
  rw [answerOf, if_pos hexpired, update_bind]
  exact (commitAll_pure none _).trans (if_pos hu')

/-- **A new request** is carried out, once an expired record of its key is gone. -/
theorem answered_of_unanswered (hu : UniqueIndexes db) (hone : OneRecord db)
    (hnew : Unanswered now scope db) :
    ∃ key db₀, exceptRecords db₀ = exceptRecords db ∧ OneRecord db₀ ∧ Unrecorded scope key db₀ ∧
      ∀ request, (answered now scope request).call db = (request key).call db₀ := by
  obtain ⟨key, hkey, hnot⟩ := hnew
  obtain ⟨db₀, hreplay⟩ := replay_of_unstored hu hnot
  obtain ⟨db₁, hfresh, hsame, hone', hunrecorded⟩ := replay_none hone hreplay
  obtain rfl : db₀ = db₁ := congrArg Session.working hfresh
  refine ⟨key, db₀, hsame, hone', hunrecorded, fun request => ?_⟩
  unfold call answered
  rw [lift_bind hkey, bind_of_ok hreplay]

/-! ## Parts that always return -/

variable {key : Option String} {order : Order} {s : Session Db}

theorem setDriverStatus_returns (now driverId : ℕ) (status : String) (s : Session Db) :
    ∃ t, setDriverStatus now driverId status s = (.ok (), t) := by
  unfold setDriverStatus
  rw [look_bind]
  rcases s.working.driverProfiles.get? driverId with _ | driver
  · exact ⟨_, rfl⟩
  · exact ⟨_, rfl⟩

theorem releaseDriverIfIdle_returns (hu : UniqueIndexes s.working) (now : ℕ) (order : Order) :
    ∃ t, releaseDriverIfIdle now order s = (.ok (), t) := by
  unfold releaseDriverIfIdle
  rcases truthyId order.assignedDriverId with _ | driverId
  · exact ⟨_, rfl⟩
  dsimp only
  rw [bind_of_ok (query_ok.mpr ⟨hu, rfl, rfl⟩)]
  rcases activeOrderOf s.working driverId (some order.id) with _ | other
  · exact setDriverStatus_returns now driverId "available" s
  · exact ⟨_, rfl⟩

theorem endDelivery_returns (hu : UniqueIndexes s.working) (now : ℕ) (order : Order)
    (newStatus : String) : ∃ t, endDelivery now order newStatus s = (.ok (), t) := by
  unfold endDelivery
  split_ifs
  · exact releaseDriverIfIdle_returns hu now order
  · exact ⟨_, rfl⟩

theorem emitOrderRealtimeUpdate_returns (now : ℕ) (eventType : String) (order : Order)
    (actorUserId : Option ℕ) (newStatus key : Option String) (s : Session Db) :
    ∃ t, emitOrderRealtimeUpdate now eventType order actorUserId newStatus key s = (.ok (), t) := by
  unfold emitOrderRealtimeUpdate
  rw [look_bind]
  generalize s.working.orderRealtimeOutbox.find? _ = found
  rcases found with _ | row
  · exact ⟨_, rfl⟩
  · exact ⟨_, rfl⟩

theorem respond_returns (hu : UniqueIndexes s.working) (hone : OneRecord s.working)
    (hnew : Unrecorded scope key s.working) (now : ℕ) (eventType : String)
    (newStatus : Option String) (order : Order) :
    ∃ t, respond now scope key eventType newStatus order s = (.ok order, t) ∧
      UniqueIndexes t.working := by
  obtain ⟨s₁, hrecord, -, -, -⟩ := record_ok now order hu hone hnew
  obtain ⟨t, hemit⟩ :=
    emitOrderRealtimeUpdate_returns now eventType order (some scope.userId) newStatus key s₁
  have hrespond : respond now scope key eventType newStatus order s = (.ok order, t) :=
    (bind_of_ok hrecord).trans ((bind_of_ok hemit).trans rfl)
  exact ⟨t, hrespond, uniqueIndexes_of_records (respond_ok hrespond).2 hu⟩

/-! ## Status updates -/

theorem uniqueIndexes_of_drivers {db db' : Db} (h : exceptDrivers db' = exceptDrivers db)
    (hu : UniqueIndexes db) : UniqueIndexes db' := by
  have hsame : { db' with driverProfiles := .empty } = { db with driverProfiles := .empty } :=
    congrArg Prod.fst h
  have hu' : UniqueIndexes { db with driverProfiles := .empty } :=
    ⟨hu.serials, hu.shelfBatteries, hu.orderBatteries⟩
  rw [← hsame] at hu'
  exact ⟨hu'.serials, hu'.shelfBatteries, hu'.orderBatteries⟩

section

variable [Casing]

variable {orderReference : String} {statusUpdate : StatusUpdate}

theorem update_call (hu : UniqueIndexes db) (hone : OneRecord db) (hnew : Unanswered now scope db)
    (hnamed : namedOrder db.orders orderReference = some order) (statusUpdate : StatusUpdate) :
    ∃ key db₀, exceptRecords db₀ = exceptRecords db ∧ OneRecord db₀ ∧ Unrecorded scope key db₀ ∧
      (updateOrderStatus now scope orderReference statusUpdate).call db =
        (committing (updateLoaded now scope key statusUpdate order)).call db₀ := by
  obtain ⟨key, db₀, hsame, hone', hunrecorded, hcall⟩ := answered_of_unanswered hu hone hnew
  refine ⟨key, db₀, hsame, hone', hunrecorded, ?_⟩
  have hu₀ : UniqueIndexes db₀ := uniqueIndexes_of_records hsame hu
  have hresolve : resolveOrderOr404 orderReference "Order not found" (.fresh db₀) =
      (.ok order, .fresh db₀) := by
    rw [resolveOrderOr404_fresh _ hu₀, orders_of_records _ _ hsame, hnamed]
  have hstatus : updateStatus now scope key orderReference statusUpdate (.fresh db₀) =
      updateLoaded now scope key statusUpdate order (.fresh db₀) := by
    rw [updateStatus, bind_of_ok hresolve]
  have hcommitting : committing (updateStatus now scope key orderReference statusUpdate)
      (.fresh db₀) = committing (updateLoaded now scope key statusUpdate order) (.fresh db₀) := by
    unfold committing
    rw [bind_eq, bind_eq, hstatus]
  rw [updateOrderStatus, hcall]
  show (committing (updateStatus now scope key orderReference statusUpdate)).call db₀ = _
  unfold call
  rw [hcommitting]

def updated (now : ℕ) (statusUpdate : StatusUpdate) (order : Order) : Order :=
  withStatus now (canonicalOrderStatus statusUpdate.status) statusUpdate order

def saved (order : Order) (s : Session Db) : Session Db :=
  ⟨s.committed, { s.working with orders := s.working.orders.set order }⟩

/-- The steps of an update up to the moves of the batteries. -/
structure Reaches (now : ℕ) (scope : RequestScope) (statusUpdate : StatusUpdate) (order : Order)
    (s s₁ s₂ t : Session Db) : Prop where
  valid : validateStatusTransition order (canonicalOrderStatus statusUpdate.status) = .ok ()
  reason : canonicalOrderStatus statusUpdate.status = "failed" →
    (truthy statusUpdate.failureReason).isSome
  dispatch : beginDispatch now order (canonicalOrderStatus statusUpdate.status) s = (.ok (), s₁)
  retry : beginRetry now order (canonicalOrderStatus statusUpdate.status) s₁ = (.ok (), s₂)
  sync : syncBatteriesForOrderStatus now (updated now statusUpdate order)
    (canonicalOrderStatus statusUpdate.status) statusUpdate.failureReason scope.userId
      (saved (updated now statusUpdate order) s₂) = (.ok (), t)

variable {s₁ s₂ t : Session Db}

theorem saveColumns_eq (horder : order ∈ s.working.orders)
    (hdispatch :
      beginDispatch now order (canonicalOrderStatus statusUpdate.status) s = (.ok (), s₁))
    (hretry : beginRetry now order (canonicalOrderStatus statusUpdate.status) s₁ = (.ok (), s₂)) :
    saveColumns order (updated now statusUpdate order) s₂ =
      (.ok (), saved (updated now statusUpdate order) s₂) := by
  have h₁ := (((fixes_beginDispatch _ _ _).of orders_of_drivers).eq hdispatch).2
  have h₂ := congrArg Prod.fst ((fixes_beginRetry _ _ _).eq hretry).2
  have hmem : order ∈ s₂.working.orders := by
    rw [show s₂.working.orders = s.working.orders from h₂.trans h₁]
    exact horder
  unfold saveColumns updated saved
  rw [← writeOrder_of_mem hmem]
  rfl

theorem reaches_of_ok {response : Order} (horder : order ∈ s.working.orders)
    (h : updateLoaded now scope key statusUpdate order s = (.ok response, t))
    (hu : UniqueIndexes t.working) : ∃ s₁ s₂ s₃,
      Reaches now scope statusUpdate order s s₁ s₂ s₃ ∧ UniqueIndexes s₃.working := by
  rw [updateLoaded, bind_ok] at h
  obtain ⟨_, s₀, hlift, h⟩ := h
  obtain ⟨hvalid, rfl⟩ := lift_ok.mp hlift
  obtain ⟨_, s₁, hdispatch, hrest⟩ := bind_ok.mp h
  obtain ⟨_, s₁', hensure, hrest⟩ := bind_ok.mp hrest
  obtain ⟨hreason, rfl⟩ := ensure_ok.mp hensure
  obtain ⟨_, s₂, hretry, hrest⟩ := bind_ok.mp hrest
  obtain ⟨_, s₂', hsave, hrest⟩ := bind_ok.mp hrest
  obtain ⟨_, s₃, hsync, hrest⟩ := bind_ok.mp hrest
  obtain ⟨_, s₄, hend, hrespond⟩ := bind_ok.mp hrest
  have hsaved := (saveColumns_eq horder hdispatch hretry).symm.trans hsave
  obtain ⟨-, rfl⟩ := Prod.mk.inj hsaved
  have hu₄ := uniqueIndexes_of_records (respond_ok hrespond).2.symm hu
  have hdrivers := ((fixes_endDelivery _ _ _).eq hend).2
  exact ⟨s₁, s₂, s₃, ⟨hvalid, hreason, hdispatch, hretry, hsync⟩,
    uniqueIndexes_of_drivers hdrivers.symm hu₄⟩

theorem Reaches.keyRecords_eq (h : Reaches now scope statusUpdate order s s₁ s₂ t) :
    keyRecords t.working = keyRecords s.working := by
  have h₁ := (((fixes_beginDispatch _ _ _).of keyRecords_of_drivers).eq h.dispatch).2
  have h₂ : keyRecords s₂.working = keyRecords s₁.working :=
    (((fixes_retryOrder_keys _ _).ite (readOnly_pure ()).fixes).eq h.retry).2
  have h₃ := ((fixes_sync_keys _ _ _ _ _).eq h.sync).2
  exact h₃.trans (h₂.trans h₁)

theorem Reaches.returns (h : Reaches now scope statusUpdate order s s₁ s₂ t)
    (horder : order ∈ s.working.orders) (hone : OneRecord s.working)
    (hnew : Unrecorded scope key s.working) (hu : UniqueIndexes t.working) :
    ∃ s₄ u, endDelivery now (updated now statusUpdate order)
        (canonicalOrderStatus statusUpdate.status) t = (.ok (), s₄) ∧
      updateLoaded now scope key statusUpdate order s = (.ok (updated now statusUpdate order), u) ∧
      exceptRecords u.working = exceptRecords s₄.working ∧ UniqueIndexes u.working := by
  obtain ⟨s₄, hend⟩ := endDelivery_returns hu now (updated now statusUpdate order)
    (canonicalOrderStatus statusUpdate.status)
  have hdrivers := ((fixes_endDelivery _ _ _).eq hend).2
  have hu₄ := uniqueIndexes_of_drivers hdrivers hu
  have hkeys : keyRecords s₄.working = keyRecords s.working :=
    (keyRecords_of_drivers _ _ hdrivers).trans h.keyRecords_eq
  have hnew₄ : Unrecorded scope key s₄.working := by
    intro k hk
    rw [show s₄.working.idempotencyKeys = s.working.idempotencyKeys from hkeys]
    exact hnew k hk
  obtain ⟨u, hrespond, hu'⟩ := respond_returns hu₄ (oneRecord_congr hkeys.symm hone) hnew₄ now
    "order_status_updated" (some (canonicalOrderStatus statusUpdate.status))
      (updated now statusUpdate order)
  refine ⟨s₄, u, hend, ?_, (respond_ok hrespond).2, hu'⟩
  rw [updateLoaded, lift_bind h.valid, bind_of_ok h.dispatch, ensure_bind h.reason,
    bind_of_ok h.retry]
  exact (bind_of_ok (saveColumns_eq horder h.dispatch h.retry)).trans
    ((bind_of_ok h.sync).trans ((bind_of_ok hend).trans hrespond))

theorem update_runs (hu : UniqueIndexes db) (hone : OneRecord db) (hnew : Unanswered now scope db)
    (hnamed : namedOrder db.orders orderReference = some order) (statusUpdate : StatusUpdate) :
    ∃ db₀, exceptRecords db₀ = exceptRecords db ∧
      (∀ s₁ s₂ t, Reaches now scope statusUpdate order (.fresh db₀) s₁ s₂ t →
        UniqueIndexes t.working → ∃ s₃ db', endDelivery now (updated now statusUpdate order)
            (canonicalOrderStatus statusUpdate.status) t = (.ok (), s₃) ∧
          exceptRecords db' = exceptRecords s₃.working ∧
          (updateOrderStatus now scope orderReference statusUpdate).call db =
            (.ok (updated now statusUpdate order), db')) ∧
      ∀ response db',
        (updateOrderStatus now scope orderReference statusUpdate).call db = (.ok response, db') →
          ∃ s₁ s₂ t, Reaches now scope statusUpdate order (.fresh db₀) s₁ s₂ t ∧
            UniqueIndexes t.working := by
  obtain ⟨key, db₀, hsame, hone', hunrecorded, hcall⟩ :=
    update_call hu hone hnew hnamed statusUpdate
  have horder : order ∈ db₀.orders := by
    rw [orders_of_records _ _ hsame]
    exact namedOrder_mem hnamed
  refine ⟨db₀, hsame, fun s₁ s₂ t hreach hu' => ?_, fun response db' hok => ?_⟩
  · obtain ⟨s₃, u, hend, hrun, hrecords, hu''⟩ := hreach.returns horder hone' hunrecorded hu'
    exact ⟨s₃, u.working, hend, hrecords, hcall.trans (call_committing_of_ok hrun hu'')⟩
  · rw [hcall] at hok
    rcases call_committing (fixes_updateLoaded now scope key statusUpdate order).tentative db₀ with
      ⟨e, herror⟩ | ⟨response', t, hrun, hu', -⟩
    · rw [herror] at hok
      cases congrArg Prod.fst hok
    · exact reaches_of_ok (s := .fresh db₀) horder hrun hu'

theorem update_returns_iff (hu : UniqueIndexes db) (hone : OneRecord db)
    (hnew : Unanswered now scope db)
    (hnamed : namedOrder db.orders orderReference = some order) :
    ∃ db₀, exceptRecords db₀ = exceptRecords db ∧
      ((∃ response,
          ((updateOrderStatus now scope orderReference statusUpdate).call db).1 = .ok response) ↔
        ∃ s₁ s₂ t, Reaches now scope statusUpdate order (.fresh db₀) s₁ s₂ t ∧
          UniqueIndexes t.working) := by
  obtain ⟨db₀, hsame, hruns, hreaches⟩ := update_runs hu hone hnew hnamed statusUpdate
  refine ⟨db₀, hsame, ?_⟩
  constructor
  · rintro ⟨response, hok⟩
    exact hreaches response _ (Prod.ext hok rfl)
  · rintro ⟨s₁, s₂, t, hreach, hu'⟩
    obtain ⟨_, _, -, -, hcall⟩ := hruns s₁ s₂ t hreach hu'
    exact ⟨_, congrArg Prod.fst hcall⟩

end

end WezuBackend.Orders.StatusUpdates
