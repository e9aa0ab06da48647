import WezuBackend.Orders.ActiveStatuses
import WezuBackend.Orders.StuckOrders
import WezuBackend.Orders.Waiting

/-!
# Orders that are tried again

An order that has failed is tried again by an update to `pending`, which reserves its batteries
where they were released to, and by a dispatch.  The release puts a battery back where it was
dispatched from, a reservation takes it from the inventory only: an order can be tried again exactly
if its batteries have gone back to open places there (`retry_dispatch_iff`).
-/

namespace WezuBackend.Orders.Retries

open Lib.Tables Lib.Atomicity Lib.Atomicity.Tx Core.Base Core.Letters Fleet.Model Fleet.Consistency
open Fleet.Transitions Fleet.Acceptance Fleet.Sequences Orders.Normalise Orders.ActiveStatuses
open Orders.Service Orders.Effects Orders.Requests Orders.Records Orders.Drivers
open Orders.BatteryReads Orders.Exclusivity Orders.Endings Orders.StatusUpdates Orders.StuckOrders
open Orders.Reservations Orders.Waiting

/-! ## The driver -/

/-- The driver may have an order under way. -/
def OnDuty (db : Db) (driverId : ℕ) : Prop :=
  ∃ driver ∈ db.driverProfiles, driver.id = driverId ∧
    canonicalDriverStatus driver.status ∈ ["available", "busy", "onRoute"]

instance (db : Db) (driverId : ℕ) : Decidable (OnDuty db driverId) :=
  inferInstanceAs (Decidable (∃ driver ∈ db.driverProfiles, _))

/-- The driver of the order is free for it: no other order that is under way has them. -/
structure DriverFree (db : Db) (order : Order) (driverId : ℕ) : Prop where
  assigned : truthyId order.assignedDriverId = some driverId
  onDuty : OnDuty db driverId
  orders : ∀ other ∈ db.orders, other.assignedDriverId = some driverId → other.id ≠ order.id →
    other.status ∉ activeDriverOrderStatusesDb

variable {now driverId : ℕ} {db db' : Db} {order order' : Order} {s t : Session Db}

theorem onDuty_of_busy (h : Busy db driverId) : OnDuty db driverId := by
  obtain ⟨driver, hdriver, hid, hbusy⟩ := h
  exact ⟨driver, hdriver, hid, by rw [hbusy]; decide +kernel⟩

theorem onDuty_congr (h : db'.driverProfiles = db.driverProfiles) (hduty : OnDuty db driverId) :
    OnDuty db' driverId := by
  unfold OnDuty
  rw [h]
  exact hduty

theorem DriverFree.congr (h : DriverFree db order driverId) (hid : order'.id = order.id)
    (hassigned : order'.assignedDriverId = order.assignedDriverId) (hduty : OnDuty db' driverId)
    (horders : ∀ other ∈ db'.orders, other.id ≠ order.id → other ∈ db.orders) :
    DriverFree db' order' driverId where
  assigned := hassigned ▸ h.assigned
  onDuty := hduty
  orders other hother hdriver hne :=
    h.orders other (horders other hother (hid ▸ hne)) hdriver (hid ▸ hne)

theorem idle_of_failed {status : String} (h : canonicalOrderStatus status = "failed") :
    status ∉ activeDriverOrderStatusesDb ∧ sqlOrderStatus status ∉ activeOrderStatuses := by
  have hnot : ¬ CanonicallyActive status := by
    unfold CanonicallyActive
    rw [h]
    decide
  exact ⟨fun hmem => hnot (canonicallyActive_of_driver hmem),
    fun hmem => hnot (canonicallyActive_of_locking hmem)⟩

/-- No order is in the driver's way, unless the order itself is: it is under way, and cannot be
told from the others. -/
theorem DriverFree.activeOrderOf_eq (h : DriverFree db order driverId)
    (hown : order.id ≠ "" ∨ ∀ o ∈ db.orders, o.id = order.id →
      o.status ∉ activeDriverOrderStatusesDb) :
    activeOrderOf db driverId (truthy (some order.id)) = none := by
  refine Table.find?_eq_none.mpr fun o ho => decide_eq_false ?_
  rintro ⟨hdriver, hne, hactive⟩
  by_cases hid : o.id = order.id
  · rcases hown with hnamed | hidle
    · have htruthy : truthy (some order.id) = some order.id := truthy_eq_some.mpr ⟨rfl, hnamed⟩
      rw [hid, htruthy] at hne
      exact hne rfl
    · exact hidle o ho hid hactive
  · exact h.orders o ho hdriver hid hactive

theorem driver_taken (hu : UniqueIndexes s.working) (h : DriverFree s.working order driverId)
    (hnone : activeOrderOf s.working driverId (truthy (some order.id)) = none) (now : ℕ) :
    ∃ t, (assertDriverAvailableForOrder driverId (some order.id) true >>= fun _ =>
        setDriverStatus now driverId "busy") s = (.ok (), t) ∧
      exceptDrivers t.working = exceptDrivers s.working ∧ Busy t.working driverId := by
  obtain ⟨driver, hdriver, hid, hstatus⟩ := h.onDuty
  have hget : s.working.driverProfiles.get? driverId = some driver :=
    Table.get?_eq_some.mpr ⟨hdriver, hid⟩
  obtain ⟨s₁, hcanonical⟩ : ∃ s₁, canonicalizeDriver driver s = (.ok (), s₁) := by
    unfold canonicalizeDriver
    split_ifs
    · exact ⟨_, rfl⟩
    · exact ⟨_, rfl⟩
  have hsame := ((fixes_canonicalizeDriver driver).eq hcanonical).2
  have hu₁ : UniqueIndexes s₁.working := uniqueIndexes_of_drivers hsame hu
  have hnone₁ : activeOrderOf s₁.working driverId (truthy (some order.id)) = none := by
    unfold activeOrderOf at hnone ⊢
    rw [orders_of_drivers _ _ hsame]
    exact hnone
  have hassert : assertDriverAvailableForOrder driverId (some order.id) true true s =
      (.ok (), s₁) := by
    rw [assertDriverAvailableForOrder, bind_of_ok (query_ok.mpr ⟨hu, rfl, rfl⟩), demand_bind hget]
    refine (bind_of_ok hcanonical).trans ?_
    rw [if_pos rfl, ensure_bind hstatus, if_pos rfl, assertNoActiveConflict,
      bind_of_ok (query_ok.mpr ⟨hu₁, rfl, rfl⟩), hnone₁]
    rfl
  obtain ⟨t, hset⟩ := setDriverStatus_returns now driverId "busy" s₁
  have hknown : driverId ∈ driverIds s₁.working := by
    rw [driverIds_of_drivers _ _ hsame]
    exact Table.mem_keys.mpr ⟨driver, hdriver, hid⟩
  have hrest := ((fixes_setDriverStatus now driverId "busy").eq hset).2
  exact ⟨t, (bind_of_ok hassert).trans hset, hrest.trans hsame, busy_of_taken hknown hset⟩

theorem namedOrder_set {orders : Table Order} {orderReference : String}
    (h : namedOrder orders orderReference = some order) (hid : order'.id = order.id)
    (htracking : order'.trackingNumber = order.trackingNumber) :
    namedOrder (orders.set order') orderReference = some order' := by
  have hmem := namedOrder_mem h
  have hsame : ∀ x ∈ orders, Row.key x = Row.key order' →
      (decide (x.trackingNumber = some (Core.Text.strip orderReference)) : Bool) =
        decide (order'.trackingNumber = some (Core.Text.strip orderReference)) := by
    intro x hx hkey
    rw [Table.eq_of_key hx hmem (hkey.trans hid), htracking]
  unfold namedOrder at h ⊢
  split_ifs at h ⊢
  rw [Table.get?_set, Table.find?_set hsame, ← Option.map_or, h, Option.map_some]
  exact congrArg some (if_pos hid.symm)

section

variable [Casing]

variable {batteries : List Battery} {scope : RequestScope} {statusUpdate : StatusUpdate}
  {orderReference : String}

/-! ## Orders that wait -/

structure Failed (db : Db) (order : Order) (driverId : ℕ) (batteries : List Battery) : Prop where
  waits : Waits .available db order batteries
  driver : DriverFree db order driverId
  mem : order ∈ db.orders
  status : canonicalOrderStatus order.status = "failed"

/-- The order waits to be dispatched: its batteries are reserved in the inventory. -/
structure Ready (db : Db) (order : Order) (driverId : ℕ) (batteries : List Battery) : Prop where
  waits : Waits .reserved db order batteries
  driver : DriverFree db order driverId
  stocked : ∀ b ∈ batteries, Stocked b
  status : canonicalOrderStatus order.status = "pending"

theorem Failed.ended (h : Failed db order driverId batteries) : Ended db order.id := by
  intro o ho hid
  rw [Table.eq_of_key ho h.mem hid]
  exact (idle_of_failed h.status).2

omit [Casing] in
theorem DriverFree.of_records (h : DriverFree db order driverId)
    (hsame : exceptRecords db' = exceptRecords db) : DriverFree db' order driverId := by
  refine h.congr rfl rfl (onDuty_congr (drivers_of_records _ _ hsame) h.onDuty) fun other ho _ => ?_
  rwa [orders_of_records _ _ hsame] at ho

theorem Failed.of_records (h : Failed db order driverId batteries)
    (hsame : exceptRecords db' = exceptRecords db) : Failed db' order driverId batteries where
  waits := h.waits.except (.inl hsame)
  driver := h.driver.of_records hsame
  mem := by
    rw [orders_of_records _ _ hsame]
    exact h.mem
  status := h.status

theorem Ready.of_records (h : Ready db order driverId batteries)
    (hsame : exceptRecords db' = exceptRecords db) : Ready db' order driverId batteries where
  waits := h.waits.except (.inl hsame)
  driver := h.driver.of_records hsame
  stocked := h.stocked
  status := h.status

theorem waits_saved {status : BatteryStatus} (h : Waits status s.working order batteries)
    (now : ℕ) (statusUpdate : StatusUpdate) :
    Waits status (saved (updated now statusUpdate order) s).working
      (updated now statusUpdate order) batteries :=
  h.untouched (h.untouched_of_same rfl rfl rfl rfl rfl rfl rfl fun _ hother =>
    (heldElsewhere_set rfl rfl).mp hother)

omit [Casing] in
theorem DriverFree.saved (h : DriverFree s.working order driverId) (now : ℕ)
    (statusUpdate : StatusUpdate) :
    DriverFree (saved (updated now statusUpdate order) s).working
      (updated now statusUpdate order) driverId := by
  refine h.congr rfl rfl h.onDuty fun other ho hne => ?_
  rcases Table.mem_set.mp ho with ⟨hold, -⟩ | ⟨rfl, -⟩
  · exact hold
  · exact absurd rfl hne

/-! ## The retry -/

theorem stocked_reserved {battery : Battery} (h : AtOpenPlace db battery) (now : ℕ)
    (orderId : String) (exclude : Option String) :
    Stocked (outcome now (reserved orderId exclude battery) battery) := by
  obtain ⟨type, hat, hrequiring⟩ := h.type_eq
  have htype : targetLocationType (reserved orderId exclude battery) battery = some type :=
    Option.or_self.trans hat
  refine ⟨?_, ?_⟩
  · rw [outcome_locationType, htype, ← hat]
    exact h.inventory
  · rw [outcome_locationId, storedLocationId_of_requiring htype hrequiring]
    exact h.stocked.2

theorem retryOrder_of_reserved (h : Failed s.working order driverId batteries)
    (hu : UniqueIndexes s.working)
    (hreserve : reserveOrderBatteries now order.id (batteryIdsOf s.working order) (some order.id)
      s = (.ok (), t)) :
    ∃ u, retryOrder now order s = (.ok (), u) ∧ UniqueIndexes u.working ∧
      u.working.orders = s.working.orders ∧ DriverFree u.working order driverId ∧
        Waits .reserved u.working order
          (outcomes now (reserved order.id (some order.id)) batteries) := by
  have hsome : batteries = [] →
      canonicalOrderStatus order.status ∉ ["in_transit", "delivered"] := by
    intro _
    rw [h.status]
    decide
  obtain ⟨hids, -⟩ := readsTo_of_complete hu h.waits.reads h.waits.complete hsome
  obtain ⟨hafter, hwaits⟩ := h.waits.reserve_run hu h.ended hreserve
  have hmoves := ((fixes_reserveOrderBatteries _ _ _ _).eq hreserve).2
  have hprofiles : t.working.driverProfiles = s.working.driverProfiles :=
    drivers_of_both _ _ (ordersAndDrivers_of_moves _ _ hmoves)
  have hdriver : DriverFree t.working order driverId := by
    refine h.driver.congr rfl rfl (onDuty_congr hprofiles h.driver.onDuty) fun other ho _ => ?_
    rwa [hafter.orders] at ho
  have hnone := hdriver.activeOrderOf_eq (.inr fun o ho hid => by
    rw [hafter.orders] at ho
    rw [Table.eq_of_key ho h.mem hid]
    exact (idle_of_failed h.status).1)
  obtain ⟨u, htaken, hsame, hbusy⟩ := driver_taken hafter.unique hdriver hnone now
  have horders : u.working.orders = t.working.orders := orders_of_drivers _ _ hsame
  refine ⟨u, ?_, uniqueIndexes_of_drivers hsame hafter.unique, horders.trans hafter.orders, ?_,
    hwaits.except (.inr hsame)⟩
  · rw [retryOrder, bind_of_ok hids, bind_of_ok hreserve, h.driver.assigned]
    exact htaken
  · refine hdriver.congr rfl rfl (onDuty_of_busy hbusy) fun other ho _ => ?_
    rwa [horders] at ho

/-! ## The update to `pending` -/

omit [Casing] in
theorem samePlaces_of_records (h : exceptRecords db' = exceptRecords db) : SamePlaces db db' := by
  obtain ⟨idempotencyKeys, orderRealtimeOutbox, rfl⟩ : ∃ idempotencyKeys orderRealtimeOutbox,
      db' = { db with idempotencyKeys, orderRealtimeOutbox } :=
    ⟨_, _, congrArg (fun x : Db => { x with
      idempotencyKeys := db'.idempotencyKeys, orderRealtimeOutbox := db'.orderRealtimeOutbox }) h⟩
  exact ⟨rfl, rfl, rfl, rfl⟩

theorem ready_of_retried (h : DriverFree s.working order driverId)
    (hwaits : Waits .reserved s.working order batteries) (hstocked : ∀ b ∈ batteries, Stocked b)
    (hpending : canonicalOrderStatus statusUpdate.status = "pending") (now : ℕ) :
    Ready (saved (updated now statusUpdate order) s).working (updated now statusUpdate order)
      driverId batteries where
  waits := waits_saved hwaits now statusUpdate
  driver := h.saved now statusUpdate
  stocked := hstocked
  status := (canonical_canonical _).trans hpending

variable {s₁ s₂ : Session Db}

theorem open_of_reaches (h : Failed s.working order driverId batteries)
    (hu : UniqueIndexes s.working) (hpending : canonicalOrderStatus statusUpdate.status = "pending")
    (hreach : Reaches now scope statusUpdate order s s₁ s₂ t) :
    ∀ b ∈ batteries, AtOpenPlace s.working b := by
  have hdispatch := hreach.dispatch
  have hretry := hreach.retry
  rw [beginDispatch, hpending, if_neg (by decide)] at hdispatch
  obtain ⟨-, rfl⟩ := pure_ok.mp hdispatch
  rw [beginRetry, hpending, h.status, if_pos ⟨rfl, rfl⟩, retryOrder] at hretry
  have hsome : batteries = [] →
      canonicalOrderStatus order.status ∉ ["in_transit", "delivered"] := by
    intro _
    rw [h.status]
    decide
  obtain ⟨hids, -⟩ := readsTo_of_complete hu h.waits.reads h.waits.complete hsome
  rw [bind_of_ok hids] at hretry
  obtain ⟨_, u, hreserve, -⟩ := bind_ok.mp hretry
  exact (h.waits.reserve_iff hu h.ended).mp ⟨u, hreserve⟩

theorem reaches_of_open (h : Failed s.working order driverId batteries)
    (hu : UniqueIndexes s.working) (hpending : canonicalOrderStatus statusUpdate.status = "pending")
    (hopen : ∀ b ∈ batteries, AtOpenPlace s.working b) (now : ℕ) (scope : RequestScope) :
    ∃ s₂ t moved, Reaches now scope statusUpdate order s s s₂ t ∧ UniqueIndexes t.working ∧
      t.working.orders = s.working.orders.set (updated now statusUpdate order) ∧
        moved.length = batteries.length ∧
          Ready t.working (updated now statusUpdate order) driverId moved := by
  obtain ⟨s₁, hreserve⟩ : ∃ s₁, reserveOrderBatteries now order.id (batteryIdsOf s.working order)
      (some order.id) s = (.ok (), s₁) := (h.waits.reserve_iff hu h.ended).mpr hopen
  obtain ⟨s₂, hretry, hu₂, horders, hdriver, hwaits⟩ := retryOrder_of_reserved h hu hreserve
  have hstocked : ∀ b ∈ outcomes now (reserved order.id (some order.id)) batteries, Stocked b := by
    intro b hb
    obtain ⟨y, hy, rfl⟩ := List.mem_map.mp hb
    exact stocked_reserved (hopen y hy) now order.id (some order.id)
  have hready := ready_of_retried hdriver hwaits hstocked hpending now
  have hu' : UniqueIndexes (saved (updated now statusUpdate order) s₂).working :=
    ⟨hu₂.serials, hu₂.shelfBatteries, hu₂.orderBatteries⟩
  refine ⟨s₂, saved (updated now statusUpdate order) s₂, _, ⟨?_, ?_, ?_, ?_, ?_⟩, hu', ?_,
    List.length_map _, hready⟩
  · unfold validateStatusTransition
    rw [canonical_canonical, h.status, hpending]
    rfl
  · rw [hpending]
    exact fun hfailed => absurd hfailed (by decide)
  · rw [beginDispatch, hpending, if_neg (by decide)]
    rfl
  · rw [beginRetry, hpending, h.status, if_pos ⟨rfl, rfl⟩]
    exact hretry
  · rw [hpending]
    exact hready.waits.sync_pending hu' hready.status
  · exact congrArg (Table.set · (updated now statusUpdate order)) horders

/-- **An update to `pending`** of an order whose batteries are in the inventory. -/
theorem retry_call (hu : UniqueIndexes db) (hone : OneRecord db) (hnew : Unanswered now scope db)
    (hnamed : namedOrder db.orders orderReference = some order)
    (hpending : canonicalOrderStatus statusUpdate.status = "pending")
    (h : Failed db order driverId batteries) (hopen : ∀ b ∈ batteries, AtOpenPlace db b) :
    ∃ db' moved, (updateOrderStatus now scope orderReference statusUpdate).call db =
        (.ok (updated now statusUpdate order), db') ∧
      namedOrder db'.orders orderReference = some (updated now statusUpdate order) ∧
        moved.length = batteries.length ∧
          Ready db' (updated now statusUpdate order) driverId moved := by
  obtain ⟨db₀, hsame, hruns, -⟩ := update_runs hu hone hnew hnamed statusUpdate
  have hopen₀ : ∀ b ∈ batteries, AtOpenPlace db₀ b := fun b hb =>
    (hopen b hb).congr (samePlaces_of_records hsame)
  have hu₀ : UniqueIndexes db₀ := uniqueIndexes_of_records hsame hu
  obtain ⟨s₂, t, moved, hreach, hu', horders, hlength, hready⟩ :=
    reaches_of_open (s := .fresh db₀) (h.of_records hsame) hu₀ hpending hopen₀ now scope
  obtain ⟨s₃, db', hend, hrecords, hcall⟩ := hruns _ s₂ t hreach hu'
  rw [endDelivery, hpending, if_neg (by decide)] at hend
  obtain ⟨-, rfl⟩ := pure_ok.mp hend
  refine ⟨db', moved, hcall, ?_, hlength, hready.of_records hrecords⟩
  rw [orders_of_records _ _ hrecords, horders, Session.working_fresh, orders_of_records _ _ hsame]
  exact namedOrder_set hnamed rfl rfl

theorem open_of_retry {response : Order} (hu : UniqueIndexes db) (hone : OneRecord db)
    (hnew : Unanswered now scope db)
    (hnamed : namedOrder db.orders orderReference = some order)
    (hpending : canonicalOrderStatus statusUpdate.status = "pending")
    (h : Failed db order driverId batteries)
    (hcall : (updateOrderStatus now scope orderReference statusUpdate).call db =
      (.ok response, db')) : ∀ b ∈ batteries, AtOpenPlace db b := by
  obtain ⟨db₀, hsame, -, hreaches⟩ := update_runs hu hone hnew hnamed statusUpdate
  obtain ⟨s₁, s₂, t, hreach, -⟩ := hreaches response db' hcall
  have hopen := open_of_reaches (s := .fresh db₀) (h.of_records hsame)
    (uniqueIndexes_of_records hsame hu) hpending hreach
  exact fun b hb => (hopen b hb).congr (samePlaces_of_records hsame.symm)

/-! ## The dispatch -/

theorem waits_of_driver {s₁ : Session Db} (h : Ready s.working order driverId batteries)
    (hdispatch : beginDispatch now order "in_transit" s = (.ok (), s₁)) :
    Waits .reserved (saved (updated now statusUpdate order) s₁).working
      (updated now statusUpdate order) batteries := by
  have hsame := ((fixes_beginDispatch now order "in_transit").eq hdispatch).2
  exact waits_saved (h.waits.except (.inr hsame)) now statusUpdate

theorem reaches_of_ready (h : Ready s.working order driverId batteries)
    (hu : UniqueIndexes s.working)
    (hstatus : canonicalOrderStatus statusUpdate.status = "in_transit") (hid : order.id ≠ "")
    (hsome : batteries ≠ []) (now : ℕ) (scope : RequestScope) :
    ∃ s₁ t, Reaches now scope statusUpdate order s s₁ s₁ t ∧ UniqueIndexes t.working := by
  obtain ⟨s₁, htaken, hsame, -⟩ :=
    driver_taken hu h.driver (h.driver.activeOrderOf_eq (.inl hid)) now
  have hdispatch : beginDispatch now order "in_transit" s = (.ok (), s₁) := by
    rw [beginDispatch, if_pos rfl, dispatchDriver, demand_bind h.driver.assigned]
    exact htaken
  have hu₁ := uniqueIndexes_of_drivers hsame hu
  have hu' : UniqueIndexes (saved (updated now statusUpdate order) s₁).working :=
    ⟨hu₁.serials, hu₁.shelfBatteries, hu₁.orderBatteries⟩
  obtain ⟨t, hsync, ht⟩ : ∃ t, syncBatteriesForOrderStatus now (updated now statusUpdate order)
      "in_transit" statusUpdate.failureReason scope.userId
        (saved (updated now statusUpdate order) s₁) = (.ok (), t) ∧ UniqueIndexes t.working :=
    (waits_of_driver h hdispatch).sync_dispatch hu' hid hsome h.stocked
  refine ⟨s₁, t, ⟨?_, ?_, hstatus ▸ hdispatch, ?_, hstatus ▸ hsync⟩, ht⟩
  · unfold validateStatusTransition
    rw [canonical_canonical, h.status, hstatus]
    rfl
  · rw [hstatus]
    exact fun hfailed => absurd hfailed (by decide)
  · rw [beginRetry, h.status, if_neg (by simp)]
    rfl

theorem named_of_reaches (h : Ready s.working order driverId batteries)
    (hu : UniqueIndexes s.working)
    (horder : order ∈ s.working.orders) (hlisted : order.status ∈ activeDriverOrderStatusesDb)
    (hstatus : canonicalOrderStatus statusUpdate.status = "in_transit")
    (hreach : Reaches now scope statusUpdate order s s₁ s₂ t) :
    order.id ≠ "" ∧ batteries ≠ [] := by
  have hdispatch := hreach.dispatch
  have hretry := hreach.retry
  have hsync := hreach.sync
  rw [hstatus] at hdispatch hretry hsync
  rw [beginRetry, h.status, if_neg (by simp)] at hretry
  obtain ⟨-, rfl⟩ := pure_ok.mp hretry
  have hwaits : Waits .reserved (saved (updated now statusUpdate order) s₁).working
      (updated now statusUpdate order) batteries := waits_of_driver h hdispatch
  have hsame := ((fixes_beginDispatch now order "in_transit").eq hdispatch).2
  have hu₁ := uniqueIndexes_of_drivers hsame hu
  have hu' : UniqueIndexes (saved (updated now statusUpdate order) s₁).working :=
    ⟨hu₁.serials, hu₁.shelfBatteries, hu₁.orderBatteries⟩
  refine ⟨fun hid => ?_, fun hnil => ?_⟩
  · -- an order without an id is in its own way
    rw [beginDispatch, if_pos rfl, dispatchDriver, demand_bind h.driver.assigned] at hdispatch
    obtain ⟨_, u, hassert, -⟩ := bind_ok.mp hdispatch
    obtain ⟨-, horders, hcheck⟩ := assertDriverAvailable_ok hassert
    have hnone := Table.find?_eq_none.mp (hcheck rfl) order (horders ▸ horder)
    refine of_decide_eq_false hnone ⟨?_, ?_, hlisted⟩
    · exact (Option.filter_eq_some_iff.mp h.driver.assigned).1
    · rw [hid, show truthy (some "") = none from rfl]
      exact Option.some_ne_none ""
  · rw [syncBatteriesForOrderStatus, bind_ok] at hsync
    obtain ⟨ids, u, hids, -⟩ := hsync
    obtain ⟨-, -, -, -, hall, hsome⟩ := (getOrderBatteryIds_iff hu').mp ⟨u, hids⟩
    have hempty : ids = [] := by
      rw [hall, ← hwaits.reads.found.each, hnil]
      rfl
    refine hsome hempty ?_
    rw [show canonicalOrderStatus (updated now statusUpdate order).status =
      canonicalOrderStatus statusUpdate.status from canonical_canonical _, hstatus]
    decide

/-! ## Orders that have failed -/

structure NewUpdate (now : ℕ) (scope : RequestScope) (orderReference : String)
    (statusUpdate : StatusUpdate) (newStatus : String) (db : Db) (order : Order) : Prop where
  unique : UniqueIndexes db
  once : OneRecord db
  unanswered : Unanswered now scope db
  named : namedOrder db.orders orderReference = some order
  status : canonicalOrderStatus statusUpdate.status = newStatus

/-- **The batteries of an order that has failed** wait where they were released to. -/
theorem waits_of_failing {failed : Order}
    (hnew : NewUpdate now scope orderReference statusUpdate "failed" db order)
    (hcall : (updateOrderStatus now scope orderReference statusUpdate).call db =
      (.ok failed, db')) :
    failed = updated now statusUpdate order ∧ namedOrder db'.orders orderReference = some failed ∧
      ∃ batteries, Waits .available db' failed batteries := by
  obtain ⟨db₀, hsame, hruns, hreaches⟩ :=
    update_runs hnew.unique hnew.once hnew.unanswered hnew.named statusUpdate
  obtain ⟨s₁, s₂, t, hreach, hu'⟩ := hreaches failed db' hcall
  obtain ⟨s₃, db'', hend, hrecords, hcall'⟩ := hruns s₁ s₂ t hreach hu'
  obtain ⟨hresponse, hstore⟩ := Prod.mk.inj (hcall.symm.trans hcall')
  obtain rfl := Except.ok.inj hresponse
  obtain rfl := hstore
  have hdispatch := hreach.dispatch
  have hretry := hreach.retry
  have hsync := hreach.sync
  rw [hnew.status] at hdispatch hretry hsync hend
  obtain ⟨-, rfl⟩ := pure_ok.mp hdispatch
  rw [beginRetry, if_neg (by simp)] at hretry
  obtain ⟨-, rfl⟩ := pure_ok.mp hretry
  have hu₀ : UniqueIndexes db₀ := uniqueIndexes_of_records hsame hnew.unique
  have hends : Ends order (canonicalOrderStatus statusUpdate.status) := hnew.status ▸ .failed
  have hdrivers := ((fixes_endDelivery _ _ _).eq hend).2
  refine ⟨rfl, ?_, ?_⟩
  · have hsaved := (((fixes_syncBatteriesForOrderStatus _ _ _ _ _).of orders_of_both).eq hsync).2
    rw [orders_of_records _ _ hrecords, orders_of_drivers _ _ hdrivers, hsaved]
    show namedOrder (db₀.orders.set (updated now statusUpdate order)) orderReference = _
    rw [orders_of_records _ _ hsame]
    exact namedOrder_set hnew.named rfl rfl
  · obtain ⟨batteries, hwaits⟩ := waits_of_ended .failed
      ⟨hu₀.serials, hu₀.shelfBatteries, hu₀.orderBatteries⟩ (ended_set hends) hsync
    exact ⟨batteries, (hwaits.except (.inr hdrivers)).except (.inl hrecords)⟩

/-- Since the store `db` nothing has touched the batteries of the order, it has the status, and its
driver is free. -/
structure Undisturbed (status : String) (db db' : Db) (order order' : Order) : Prop where
  untouched : Untouched db db' order order'
  status : canonicalOrderStatus order'.status = status
  driver : ∃ driverId, DriverFree db' order' driverId

theorem Ready.undisturbed (h : Ready db order driverId batteries)
    (hsame : Undisturbed "pending" db db' order order') :
    ∃ driverId', Ready db' order' driverId' batteries := by
  obtain ⟨driverId', hdriver⟩ := hsame.driver
  exact ⟨driverId', h.waits.untouched hsame.untouched, hdriver, h.stocked, hsame.status⟩

theorem Ready.self (h : Ready db order driverId batteries) :
    Undisturbed "pending" db db order order where
  untouched := h.waits.untouched_of_same rfl rfl rfl rfl rfl rfl rfl fun _ hother => hother
  status := h.status
  driver := ⟨driverId, h.driver⟩

/-- The order can be tried again: it has an id and batteries, and they are all at open places of the
inventory. -/
structure Resumable (db : Db) (order : Order) : Prop where
  named : order.id ≠ ""
  some : batteryIdsOf db order ≠ []
  places : ∀ b ∈ db.batteries, b.serialNumber ∈ batteryIdsOf db order → AtOpenPlace db b

theorem places_iff (h : Waits .available db order batteries) (hu : UniqueIndexes db) :
    (∀ b ∈ batteries, AtOpenPlace db b) ↔
      ∀ b ∈ db.batteries, b.serialNumber ∈ batteryIdsOf db order → AtOpenPlace db b := by
  constructor
  · intro hopen b hb hserial
    rw [← h.reads.found.each] at hserial
    obtain ⟨y, hy, hname⟩ := mem_serialsOf.mp hserial
    rw [h.serial y hy] at hname
    have hid := hu.serials y (h.reads.found.mem y hy).1 b hb hname
    rw [← Table.eq_of_key (h.reads.found.mem y hy).1 hb hid]
    exact hopen y hy
  · intro hopen b hb
    refine hopen b (h.reads.found.mem b hb).1 ?_
    rw [← h.serial b hb]
    exact h.mem_ids hb

theorem batteries_ne_nil (h : Waits .available db order batteries) :
    batteries ≠ [] ↔ batteryIdsOf db order ≠ [] := by
  rw [← h.reads.found.each]
  exact (not_congr List.map_eq_nil_iff).symm

theorem dispatch_returns
    (hnew : NewUpdate now scope orderReference statusUpdate "in_transit" db order)
    (h : Ready db order driverId batteries) (hid : order.id ≠ "") (hsome : batteries ≠ []) :
    ∃ sent, ((updateOrderStatus now scope orderReference statusUpdate).call db).1 = .ok sent := by
  obtain ⟨db₀, hsame, hruns, -⟩ :=
    update_runs hnew.unique hnew.once hnew.unanswered hnew.named statusUpdate
  obtain ⟨s₁, t, hreach, hu'⟩ := reaches_of_ready (s := .fresh db₀) (h.of_records hsame)
    (uniqueIndexes_of_records hsame hnew.unique) hnew.status hid hsome now scope
  obtain ⟨_, _, -, -, hcall⟩ := hruns s₁ s₁ t hreach hu'
  exact ⟨_, congrArg Prod.fst hcall⟩

theorem named_of_dispatch {sent : Order}
    (hnew : NewUpdate now scope orderReference statusUpdate "in_transit" db order)
    (h : Ready db order driverId batteries) (hlisted : order.status ∈ activeDriverOrderStatusesDb)
    (hcall : ((updateOrderStatus now scope orderReference statusUpdate).call db).1 = .ok sent) :
    order.id ≠ "" ∧ batteries ≠ [] := by
  obtain ⟨db₀, hsame, -, hreaches⟩ :=
    update_runs hnew.unique hnew.once hnew.unanswered hnew.named statusUpdate
  obtain ⟨s₁, s₂, t, hreach, -⟩ := hreaches sent _ (Prod.ext hcall rfl)
  refine named_of_reaches (s := .fresh db₀) (h.of_records hsame)
    (uniqueIndexes_of_records hsame hnew.unique) ?_ hlisted hnew.status hreach
  rw [Session.working_fresh, orders_of_records _ _ hsame]
  exact namedOrder_mem hnew.named

end

/-! ## A return that fails -/

/-- Order `O1` has been delivered, and its return `R1` is on its way from the customer. -/
def returning : List Event :=
  [.request (orderOf "O1"), .request (proofOf "O1"), .request (returnOf "R1"),
    .request (.assign 1 (operator "/orders/R1/assign-driver") "R1" [.text "7"]),
    .request (.update 2 (operator "/orders/R1/status") "R1" { status := "in_transit" })]

/-- The store once the order could not be delivered. -/
def afterFailure (events : List Event) (orderId : String) : Db :=
  ((updateOrderStatus 3 (operator "/orders/status") orderId notDelivered).call
    (runEvents twoDepots events)).2

/-- The order has failed, and driver 7 is free for it. -/
def FailedAfter (events : List Event) (orderId : String) : Prop :=
  (namedOrder (runEvents twoDepots events).orders orderId).isSome ∧
    ((updateOrderStatus 3 (operator "/orders/status") orderId notDelivered).call
      (runEvents twoDepots events)).1.isOk ∧
    ((namedOrder (afterFailure events orderId).orders orderId).any fun o =>
      o.id = orderId ∧ truthyId o.assignedDriverId = some 7) ∧
    OnDuty (afterFailure events orderId) 7 ∧
    ∀ other ∈ (afterFailure events orderId).orders, other.assignedDriverId = some 7 →
      other.id ≠ orderId → other.status ∉ activeDriverOrderStatusesDb

instance (events : List Event) (orderId : String) : Decidable (FailedAfter events orderId) := by
  unfold FailedAfter
  infer_instance

/-- An order that has failed and that nothing has disturbed since. -/
theorem failed_sample {events : List Event} {orderId : String} (h : FailedAfter events orderId) :
    ∃ order failed, NewUpdate 3 (operator "/orders/status") orderId notDelivered "failed"
        (runEvents twoDepots events) order ∧
      (updateOrderStatus 3 (operator "/orders/status") orderId notDelivered).call
        (runEvents twoDepots events) = (.ok failed, afterFailure events orderId) ∧
      Undisturbed "failed" (afterFailure events orderId) (afterFailure events orderId) failed
        failed ∧
      NewUpdate 3 (operator "/orders/status") orderId { status := "pending" } "pending"
        (afterFailure events orderId) failed := by
  obtain ⟨hnamed, hok, hdriver, hduty, hothers⟩ := h
  obtain ⟨order, hnamed⟩ := Option.isSome_iff_exists.mp hnamed
  obtain ⟨hu, hone⟩ := runEvents_indexed events indexed_twoDepots
  have hnew : NewUpdate 3 (operator "/orders/status") orderId notDelivered "failed"
      (runEvents twoDepots events) order :=
    ⟨hu, hone, unanswered_operator _ _, hnamed, canonical_notDelivered⟩
  obtain ⟨failed, hcall⟩ : ∃ failed,
      (updateOrderStatus 3 (operator "/orders/status") orderId notDelivered).call
        (runEvents twoDepots events) = (.ok failed, afterFailure events orderId) := by
    generalize hresult : (updateOrderStatus 3 (operator "/orders/status") orderId notDelivered).call
      (runEvents twoDepots events) = result at hok
    rcases result with ⟨e | failed, db⟩
    · cases hok
    · refine ⟨failed, ?_⟩
      rw [afterFailure, hresult]
  obtain ⟨hfailed, hnamed', batteries, hwaits⟩ := waits_of_failing hnew hcall
  rw [hnamed'] at hdriver
  obtain ⟨hid, hassigned⟩ := of_decide_eq_true hdriver
  have hstep : afterFailure events orderId = (Request.update 3 (operator "/orders/status") orderId
      notDelivered).step (runEvents twoDepots events) := rfl
  refine ⟨order, failed, hnew, hcall, ⟨?_, ?_, 7, hassigned, hduty, ?_⟩, ⟨?_, ?_,
    unanswered_operator _ _, hnamed', by decide +kernel⟩⟩
  · exact hwaits.untouched_of_same rfl rfl rfl rfl rfl rfl rfl fun _ hother => hother
  · rw [hfailed]
    exact (canonical_canonical _).trans canonical_notDelivered
  · exact fun other hother hdriver hne => hothers other hother hdriver (hid ▸ hne)
  · exact hstep ▸ step_uniqueIndexes _ hu
  · exact hstep ▸ step_oneRecord _ hone

/-- The delivery has failed, its battery is back at its warehouse, and that is still open. -/
theorem sentOut_failed : FailedAfter sentOut "O1" ∧
    (namedOrder (afterFailure sentOut "O1").orders "O1").any (fun o =>
      o.id ≠ "" ∧ batteryIdsOf (afterFailure sentOut "O1") o ≠ []) = true ∧
    (∀ b ∈ (afterFailure sentOut "O1").batteries,
      b.locationType = some .warehouse ∧ b.locationId = some 5) ∧
    (getTransferEligibleWarehouse (afterFailure sentOut "O1") 5).isSome := by
  decide +kernel

/-- The return has failed, and is not tried again, though there is an open warehouse. -/
theorem returning_failed : FailedAfter returning "R1" ∧
    (afterFailure returning "R1").warehouses.rows.any Warehouse.isActive = true ∧
    ((updateOrderStatus 3 (operator "/orders/status") "R1" { status := "pending" }).call
      (afterFailure returning "R1")).1 = .error (.http 400 ("Battery B1 is at 'customer' and " ++
        "cannot be reserved. Move battery to warehouse/station inventory first.")) := by
  decide +kernel

end WezuBackend.Orders.Retries
