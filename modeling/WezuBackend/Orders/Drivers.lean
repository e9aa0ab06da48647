import WezuBackend.Lib.Holders
import WezuBackend.Orders.Lifecycle

/-!
# Drivers and their orders

An order has its driver while it is active.  Wherever an order gains a driver, or an order with a
driver becomes active again, the driver's other active orders are looked up first; the look-up
compares the stored text of a status with a list of spellings.  So drivers stay exclusive as long as
every active order is stored under a spelling of the list (`Visible`), and every order that this
code writes is.  A driver who is taken is busy afterwards, but for the confirmation of the driver
that an order already has, which leaves the driver as it finds them.
-/

namespace WezuBackend.Orders.Drivers

open Lib.Tables Lib.Atomicity Lib.Atomicity.Tx Lib.Runs Lib.Holders Core.Base
open Core.Letters Fleet.Model Fleet.Transitions Orders.Normalise Orders.Service
open Orders.Effects Orders.Requests Orders.Lifecycle

/-! ## Orders that have a driver -/

def active (order : Order) : Prop := canonicalOrderStatus order.status ∈ ["pending", "in_transit"]

instance (order : Order) : Decidable (active order) := by
  unfold active
  infer_instance

def drives (orders : Table Order) (orderId : String) (driverId : ℕ) : Prop :=
  ∃ order ∈ orders, order.id = orderId ∧ order.assignedDriverId = some driverId ∧ active order

variable {driverId : ℕ} {orderId : String} {orders : Table Order}

theorem drives_iff :
    drives orders orderId driverId ↔ ∃ order ∈ orders.get? orderId,
      order.assignedDriverId = some driverId ∧ active order := by
  constructor
  · rintro ⟨order, hmem, rfl, h⟩
    exact ⟨order, Table.get?_of_mem hmem, h⟩
  · rintro ⟨order, hget, h⟩
    obtain ⟨hmem, hid⟩ := Table.get?_eq_some.mp hget
    exact ⟨order, hmem, hid, h⟩

instance (orders : Table Order) (orderId : String) (driverId : ℕ) :
    Decidable (drives orders orderId driverId) := decidable_of_iff _ drives_iff.symm

/-- The look-up of a driver's orders sees every active order. -/
def Visible (orders : Table Order) : Prop :=
  ∀ order ∈ orders, active order → order.status ∈ activeDriverOrderStatusesDb

instance (orders : Table Order) : Decidable (Visible orders) := by
  unfold Visible
  infer_instance

/-- What runs keep. -/
structure Assigned (orders : Table Order) : Prop where
  exclusive : Exclusive (drives orders)
  visible : Visible orders
  positive : ∀ order ∈ orders, order.assignedDriverId ≠ some 0

/-- A look-up that finds no conflict: the driver has no active order but the excluded one. -/
theorem onlyFor_of_activeOrderOf {db : Db} (hvisible : Visible db.orders)
    (h : activeOrderOf db driverId (truthy (some orderId)) = none) :
    OnlyFor (drives db.orders) orderId driverId := by
  rintro k ⟨order, hmem, rfl, hdriver, hactive⟩
  have hnone := Table.find?_eq_none.mp h order hmem
  rw [decide_eq_false_iff_not] at hnone
  by_contra hne
  refine hnone ⟨hdriver, fun hsame => hne ?_, hvisible order hmem hactive⟩
  exact Option.some.inj (truthy_eq_some.mp hsame.symm).1.symm

theorem not_drives_of_activeOrderOf {db : Db} (hvisible : Visible db.orders)
    (h : activeOrderOf db driverId (truthy none) = none) (k : String) :
    ¬ drives db.orders k driverId := by
  rintro ⟨order, hmem, rfl, hdriver, hactive⟩
  have hnone := Table.find?_eq_none.mp h order hmem
  rw [decide_eq_false_iff_not] at hnone
  exact hnone ⟨hdriver, by simp [truthy], hvisible order hmem hactive⟩

/-! ## Writes of orders -/

/-- One order is rewritten, and gains no driver that another active order has. -/
theorem assigned_set {order order' : Order} (h : Assigned orders) (hid : order'.id = order.id)
    (hstatus : active order' → order'.status ∈ activeDriverOrderStatusesDb)
    (hpositive : order'.assignedDriverId ≠ some 0)
    (hgain : ∀ d, order'.assignedDriverId = some d → active order' →
      OnlyFor (drives orders) order.id d) : Assigned (orders.set order') := by
  have hcases : ∀ x ∈ orders.set order', x = order' ∨ (x ∈ orders ∧ x.id ≠ order.id) := by
    intro x hx
    rcases Table.mem_set.mp hx with ⟨hx, hne⟩ | ⟨rfl, -⟩
    · exact .inr ⟨hx, fun hkey => hne (hkey.trans hid.symm)⟩
    · exact .inl rfl
  refine ⟨?_, ?_, ?_⟩
  · refine h.exclusive.gain order.id ?_ ?_
    · rintro k d ⟨x, hx, rfl, hdriver, hactive⟩ hne
      rcases hcases x hx with rfl | ⟨hx, -⟩
      · exact absurd hid hne
      · exact ⟨x, hx, rfl, hdriver, hactive⟩
    · rintro d ⟨x, hx, hxid, hdriver, hactive⟩
      rcases hcases x hx with rfl | ⟨-, hne⟩
      · exact hgain d hdriver hactive
      · exact absurd hxid hne
  · intro x hx hactive
    rcases hcases x hx with rfl | ⟨hx, -⟩
    · exact hstatus hactive
    · exact h.visible x hx hactive
  · intro x hx
    rcases hcases x hx with rfl | ⟨hx, -⟩
    · exact hpositive
    · exact h.positive x hx

theorem onlyFor_of_kept {order order' : Order} (h : Assigned orders)
    (hmem : order ∈ orders) (hdriver : order'.assignedDriverId = order.assignedDriverId)
    (hactive : active order' → active order) (d : ℕ) (hd : order'.assignedDriverId = some d)
    (hd' : active order') : OnlyFor (drives orders) order.id d :=
  h.exclusive.onlyFor ⟨order, hmem, rfl, hdriver ▸ hd, hactive hd'⟩

variable {order : Order}

theorem assigned_insert (h : Assigned orders) (hnew : orders.get? order.id = none)
    (hstatus : active order → order.status ∈ activeDriverOrderStatusesDb)
    (hpositive : order.assignedDriverId ≠ some 0)
    (hfree : ∀ d k, order.assignedDriverId = some d → ¬ drives orders k d) :
    Assigned (insertOrder orders order) := by
  have hother : ∀ x ∈ orders, x.id ≠ order.id := fun x hx => Table.get?_eq_none.mp hnew x hx
  refine ⟨?_, ?_, ?_⟩
  · refine h.exclusive.gain order.id ?_ ?_
    · rintro k d ⟨x, hx, rfl, hdriver, hactive⟩ hne
      rcases (mem_insertOrder hnew).mp hx with hx | rfl
      · exact ⟨x, hx, rfl, hdriver, hactive⟩
      · exact absurd rfl hne
    · rintro d ⟨x, hx, hxid, hdriver, hactive⟩
      rcases (mem_insertOrder hnew).mp hx with hx | rfl
      · exact absurd hxid (hother x hx)
      · exact fun k hk => absurd hk (hfree d k hdriver)
  · intro x hx hactive
    rcases (mem_insertOrder hnew).mp hx with hx | rfl
    · exact h.visible x hx hactive
    · exact hstatus hactive
  · intro x hx
    rcases (mem_insertOrder hnew).mp hx with hx | rfl
    · exact h.positive x hx
    · exact hpositive

variable {s t : Session Db} {u : Unit}

variable {exclude : Option String}

theorem assertNoActiveConflict_ok (h : assertNoActiveConflict driverId exclude s = (.ok u, t)) :
    t = s ∧ activeOrderOf s.working driverId (truthy exclude) = none := by
  refine ⟨(readOnly_assertNoActiveConflict driverId exclude).eq h, ?_⟩
  rw [assertNoActiveConflict, bind_ok] at h
  obtain ⟨db, s₁, hq, h⟩ := h
  obtain ⟨-, rfl, rfl⟩ := query_ok.mp hq
  rcases hfound : activeOrderOf s.working driverId (truthy exclude) with _ | conflicting
  · rfl
  · rw [hfound] at h
    cases h

/-- **A driver who passes the check** exists and, where conflicts are looked up, has none. -/
theorem assertDriverAvailable_ok {allowBusy check : Bool}
    (h : assertDriverAvailableForOrder driverId exclude allowBusy check s = (.ok u, t)) :
    driverId ∈ driverIds t.working ∧ t.working.orders = s.working.orders ∧
      (check = true → activeOrderOf t.working driverId (truthy exclude) = none) := by
  obtain ⟨-, hdrivers⟩ := (fixes_assertDriverAvailableForOrder _ _ _ _).eq h
  have hids := driverIds_of_drivers _ _ hdrivers
  refine ⟨?_, orders_of_drivers _ _ hdrivers, ?_⟩
  · rw [hids]
    rw [assertDriverAvailableForOrder, bind_ok] at h
    obtain ⟨db, s₁, hq, h⟩ := h
    obtain ⟨-, rfl, rfl⟩ := query_ok.mp hq
    rw [bind_ok] at h
    obtain ⟨driver, s₂, hdriver, -⟩ := h
    obtain ⟨hget, -⟩ := demand_ok.mp hdriver
    obtain ⟨hmem, hid⟩ := Table.get?_eq_some.mp hget
    exact Table.mem_keys.mpr ⟨driver, hmem, hid⟩
  · rintro rfl
    rw [assertDriverAvailableForOrder, bind_ok] at h
    obtain ⟨db, s₁, -, h⟩ := h
    rw [bind_ok] at h
    obtain ⟨driver, s₂, -, h⟩ := h
    rw [bind_ok] at h
    obtain ⟨_, s₃, -, h⟩ := h
    rw [bind_ok] at h
    obtain ⟨_, s₄, -, h⟩ := h
    rw [if_pos rfl] at h
    obtain ⟨rfl, hnone⟩ := assertNoActiveConflict_ok h
    exact hnone

/-! ## What a request does to the orders -/

variable {status : String}

theorem listed_of_canonical (h : canonicalOrderStatus status = status)
    (hactive : canonicalOrderStatus status ∈ ["pending", "in_transit"]) :
    status ∈ activeDriverOrderStatusesDb := by
  rw [h] at hactive
  rcases List.mem_cons.mp hactive with rfl | hactive
  · decide
  · obtain rfl := List.mem_singleton.mp hactive
    decide

theorem status_markOrderAssigned (now : ℕ) (order : Order) :
    (markOrderAssignedIfPending now order).status = "assigned" ∨
      (markOrderAssignedIfPending now order).status = order.status := by
  unfold markOrderAssignedIfPending
  split_ifs
  · exact .inl rfl
  · exact .inr rfl

@[simp] theorem assignedDriverId_markOrderAssigned (now : ℕ) (order : Order) :
    (markOrderAssignedIfPending now order).assignedDriverId = order.assignedDriverId := by
  unfold markOrderAssignedIfPending
  split_ifs <;> rfl

variable {now : ℕ}

/-- The mark of an assignment changes neither whether the order is active nor that it is visible. -/
theorem active_markOrderAssigned :
    active (markOrderAssignedIfPending now order) ↔ active order := by
  unfold active
  rw [canonical_markOrderAssigned]

theorem listed_markOrderAssigned (h : active order → order.status ∈ activeDriverOrderStatusesDb)
    (hactive : active (markOrderAssignedIfPending now order)) :
    (markOrderAssignedIfPending now order).status ∈ activeDriverOrderStatusesDb := by
  rcases status_markOrderAssigned now order with hstatus | hstatus
  · rw [hstatus]
    decide
  · rw [hstatus]
    exact h (active_markOrderAssigned.mp hactive)

@[simp] theorem assignedDriverId_withDriver (now driverId : ℕ) (order : Order) :
    (withDriver now driverId order).assignedDriverId = some driverId := by
  rw [withDriver, assignedDriverId_markOrderAssigned]

theorem active_of_canonical (h : canonicalOrderStatus order.status = status) :
    active order ↔ status ∈ ["pending", "in_transit"] := by
  unfold active
  rw [h]

/-- An order that is not active can only be tried again after it failed. -/
theorem failed_of_revived (hwas : ¬ active order)
    (hallowed : status ∈ validTransitions (canonicalOrderStatus order.status)) :
    canonicalOrderStatus order.status = "failed" ∧ status = "pending" := by
  unfold active at hwas
  generalize canonicalOrderStatus order.status = previous at hwas hallowed ⊢
  unfold validTransitions at hallowed
  split_ifs at hallowed with hpending htransit hfailed
  · exact absurd (hpending ▸ List.mem_cons_self) hwas
  · exact absurd (htransit ▸ List.mem_cons_of_mem _ List.mem_cons_self) hwas
  · exact ⟨hfailed, List.mem_singleton.mp hallowed⟩
  · cases hallowed

variable {key : Option String} {scope : RequestScope}

variable {newStatus : String}

section

variable [Casing]

theorem beginRetry_onlyFor
    (hvisible : Visible s.working.orders) (hpositive : order.assignedDriverId ≠ some 0)
    (hfailed : canonicalOrderStatus order.status = "failed") (hpending : newStatus = "pending")
    (h : beginRetry now order newStatus s = (.ok (), t)) (d : ℕ)
    (hd : order.assignedDriverId = some d) :
    OnlyFor (drives s.working.orders) order.id d ∧ d ∈ driverIds t.working ∧
      ∃ s₁, setDriverStatus now d "busy" s₁ = (.ok (), t) ∧ d ∈ driverIds s₁.working := by
  rw [beginRetry, if_pos ⟨hfailed, hpending⟩, retryOrder, bind_ok] at h
  obtain ⟨ids, s₁, hids, h⟩ := h
  rw [bind_ok] at h
  obtain ⟨_, s₂, hreserve, h⟩ := h
  have htruthy : truthyId order.assignedDriverId = some d := by
    rw [hd, truthyId, Option.filter_eq_some_iff]
    refine ⟨rfl, ?_⟩
    rw [decide_eq_true_eq]
    rintro rfl
    exact hpositive hd
  rw [htruthy, bind_ok] at h
  obtain ⟨_, s₃, hassert, h⟩ := h
  obtain ⟨hknown, horders, hfree⟩ := assertDriverAvailable_ok hassert
  have h₁ := (((fixes_getOrderBatteryIds order).of orders_of_rows).eq hids).2
  have h₂ := (((fixes_reserveOrderBatteries _ _ _ _).of orders_of_moves).eq hreserve).2
  have hsame : s₃.working.orders = s.working.orders := by
    rw [horders, h₂, h₁]
  have hids' := (((fixes_setDriverStatus _ _ _).of driverIds_of_drivers).eq h).2
  refine ⟨?_, by rwa [hids'], s₃, h, hknown⟩
  rw [← hsame] at hvisible ⊢
  exact onlyFor_of_activeOrderOf hvisible (hfree rfl)

theorem updateLoaded_assigned {statusUpdate : StatusUpdate} {loaded order : Order}
    (hs : Assigned s.working.orders) (hmem : loaded ∈ s.working.orders)
    (h : updateLoaded now scope key statusUpdate loaded s = (.ok order, t)) :
    Assigned t.working.orders := by
  obtain ⟨hvalid, horder, s₁, s₂, s₃, s₄, hdispatch, hretry, -⟩ := updateLoaded_ok h
  have hallowed := validateStatusTransition_ok hvalid
  rw [canonical_canonical] at hallowed
  have hcanonical : canonicalOrderStatus order.status =
      canonicalOrderStatus statusUpdate.status := by
    rw [horder]
    exact canonical_canonical _
  rw [updateLoaded_orders h, horder, writeOrder_of_mem hmem, ← horder]
  have hid : order.id = loaded.id := by rw [horder]; rfl
  have hdriver : order.assignedDriverId = loaded.assignedDriverId := by rw [horder]; rfl
  refine assigned_set hs hid ?_ ?_ ?_
  · intro hactive
    refine listed_of_canonical ?_ hactive
    rw [hcanonical, horder]
    rfl
  · rw [hdriver]
    exact hs.positive loaded hmem
  · intro d hd hactive
    by_cases hwas : active loaded
    · exact onlyFor_of_kept hs hmem hdriver (fun _ => hwas) d hd hactive
    -- only a failed order can become active, by a retry
    obtain ⟨hfailed, hpending⟩ := failed_of_revived hwas hallowed
    have h₁ := (((fixes_beginDispatch _ _ _).of orders_of_drivers).eq hdispatch).2
    rw [← h₁]
    rw [hdriver] at hd
    exact (beginRetry_onlyFor (h₁ ▸ hs.visible) (hs.positive loaded hmem) hfailed hpending hretry d
      hd).1

theorem proveDelivery_assigned {pod : ProofOfDeliveryCreate} (hs : Assigned s.working.orders)
    (h : proveDelivery now scope key orderId pod s = (.ok order, t)) :
    Assigned t.working.orders := by
  obtain ⟨previous, hmem, -, ⟨imageUrl, signatureUrl, horder⟩, horders⟩ := proveDelivery_orders h
  have hstatus : canonicalOrderStatus order.status = "delivered" := by
    rw [horder]
    exact canonical_delivered
  have hended : ¬ active order := by
    rw [active_of_canonical hstatus]
    decide
  rw [horders]
  refine @assigned_set _ previous _ hs ?_ (fun hactive => absurd hactive hended) ?_ ?_
  · rw [horder]
    rfl
  · rw [horder]
    exact hs.positive previous hmem
  · exact fun d _ hactive => absurd hactive hended

end

theorem confirmDriver_assigned {previous order : Order} (hs : Assigned s.working.orders)
    (hmem : previous ∈ s.working.orders)
    (h : confirmDriver now scope key previous s = (.ok order, t)) :
    Assigned t.working.orders := by
  obtain ⟨horder, hrecords⟩ := confirmDriver_ok h
  rw [orders_of_records _ _ hrecords, horder]
  have hdriver := assignedDriverId_markOrderAssigned now previous
  refine @assigned_set _ previous _ hs (id_markOrderAssigned now previous)
    (listed_markOrderAssigned (hs.visible previous hmem)) ?_ ?_
  · rw [hdriver]
    exact hs.positive previous hmem
  · exact onlyFor_of_kept hs hmem hdriver active_markOrderAssigned.mp

theorem assigned_unassigned {conflicting : Order} (h : Assigned orders)
    (hmem : conflicting ∈ orders) (now : ℕ) :
      Assigned (orders.set (unassigned now conflicting)) := by
  have hactive : active (unassigned now conflicting) ↔ active conflicting := by
    unfold active
    rw [canonical_unassigned]
  have hnone : (unassigned now conflicting).assignedDriverId = none := by
    unfold unassigned
    rfl
  refine @assigned_set _ conflicting _ h (id_unassigned now conflicting) (fun hact => ?_) ?_ ?_
  · have hlisted := h.visible conflicting hmem (hactive.mp hact)
    unfold unassigned
    dsimp only
    split_ifs
    · decide
    · exact hlisted
  · rw [hnone]
    simp
  · rw [hnone]
    simp

theorem changeDriver_assigned {now driverId : ℕ}
    {previous order : Order} (hs : Assigned s.working.orders)
    (hids : 0 ∉ driverIds s.working) (hmem : previous ∈ s.working.orders)
    (h : changeDriver now scope key previous driverId s = (.ok order, t)) :
    Assigned t.working.orders := by
  obtain ⟨horder, found, s₁, s₂, s₃, s₄, s₅, hfirst, htake, hsecond, hbusy, hrelease, hrecords⟩ :=
    changeDriver_ok h
  obtain ⟨hknown, h₁, -⟩ := assertDriverAvailable_ok hfirst
  obtain ⟨-, h₃, hfree⟩ := assertDriverAvailable_ok hsecond
  have h₄ := (((fixes_setDriverStatus _ _ _).of orders_of_drivers).eq hbusy).2
  have h₅ := (((fixes_releasePreviousDriver _ _ _).of orders_of_drivers).eq hrelease).2
  have hids₁ :=
    (((fixes_assertDriverAvailableForOrder _ _ _ _).of driverIds_of_drivers).eq hfirst).2
  have hzero : driverId ≠ 0 := by
    rintro rfl
    rw [hids₁] at hknown
    exact hids hknown
  have htaken : Assigned s₂.working.orders ∧ previous ∈ s₂.working.orders := by
    rw [← h₁] at hs hmem
    rcases takeOver_orders htake with hsame | ⟨conflicting, hconflicting, hne, -, hset⟩
    · rw [hsame]
      exact ⟨hs, hmem⟩
    · rw [hset]
      refine ⟨assigned_unassigned hs hconflicting now, mem_set_other hmem fun hkey => hne ?_⟩
      rw [hkey, id_unassigned]
  have hlast : t.working.orders = s₂.working.orders.set order := by
    rw [orders_of_records _ _ hrecords, h₅, h₄, h₃]
  have hfree' := hfree rfl
  rw [hlast, horder]
  refine @assigned_set _ previous _ htaken.1 (id_markOrderAssigned now _) ?_ ?_ ?_
  · exact listed_markOrderAssigned (htaken.1.visible previous htaken.2)
  · rw [assignedDriverId_withDriver]
    exact fun hsame => hzero (Option.some.inj hsame)
  · intro d hd _
    rw [assignedDriverId_withDriver] at hd
    obtain rfl := Option.some.inj hd
    rw [← h₃]
    exact onlyFor_of_activeOrderOf (h₃ ▸ htaken.1.visible) hfree'

theorem assignTo_assigned {orderId driverReference : String}
    (hs : Assigned s.working.orders) (hids : 0 ∉ driverIds s.working)
    (h : assignTo now scope key orderId driverReference s = (.ok order, t)) :
    Assigned t.working.orders := by
  obtain ⟨previous, driver, hprevious, -, -, hassign⟩ := assignTo_ok h
  have hmem := namedOrder_mem hprevious
  rcases hassign with ⟨-, hconfirm⟩ | ⟨-, hchange⟩
  · exact confirmDriver_assigned hs hmem hconfirm
  · exact changeDriver_assigned hs hids hmem hchange

theorem takeDriver_ok {fresh order : Order} (h : takeDriver now fresh s = (.ok order, t)) :
    (fresh.assignedDriverId = none ∧ order = fresh ∧ t = s) ∨
      ∃ d, fresh.assignedDriverId = some d ∧ order = markOrderAssignedIfPending now fresh ∧
        setDriverStatus now d "busy" s = (.ok (), t) := by
  unfold takeDriver at h
  rcases hdriver : fresh.assignedDriverId with _ | d
  · rw [hdriver] at h
    obtain ⟨hsame, rfl⟩ := pure_ok.mp h
    exact .inl ⟨rfl, hsame.symm, rfl⟩
  · rw [hdriver, bind_ok] at h
    obtain ⟨_, s₁, hbusy, h⟩ := h
    obtain ⟨hsame, rfl⟩ := pure_ok.mp h
    exact .inr ⟨d, rfl, hsame.symm, hbusy⟩

variable {request : Request}

section

variable [Casing]

/-- What is known of a new order when it is inserted. -/
structure Prepared (now : ℕ) (s t : Session Db) (order : Order) : Prop where
  orders : t.working.orders = s.working.orders
  listed : order.status ∈ activeDriverOrderStatusesDb
  free : ∀ d k, order.assignedDriverId = some d → ¬ drives s.working.orders k d
  known : ∀ d, order.assignedDriverId = some d → d ∈ driverIds s.working
  busy : ∀ d, order.assignedDriverId = some d →
    ∃ s₁, setDriverStatus now d "busy" s₁ = (.ok (), t) ∧ d ∈ driverIds s₁.working

theorem prepareOrder_prepared {payload : OrderCreate} {prepared : Order × List String}
    (hs : Assigned s.working.orders)
    (h : prepareOrder now payload s = (.ok prepared, t)) : Prepared now s t prepared.1 := by
  obtain ⟨-, fresh, s₁, s₂, hfresh, -, hdriver, hreserve, htake⟩ := prepareOrder_ok h
  have h₁ := (((fixes_assertNewDriver _).of ordersAndIds_of_drivers).eq hdriver).2
  have h₂ := (((fixes_reserveOrderBatteries _ _ _ _).of fun db db' hm =>
    ordersAndIds_of_both _ _ (ordersAndDrivers_of_moves db db' hm)).eq hreserve).2
  have hsame : ordersAndIds s₂.working = ordersAndIds s.working := h₂.trans h₁
  have horders := prepareOrder_orders h
  have hpending : fresh.status ∈ activeDriverOrderStatusesDb := by
    rw [hfresh.status]
    decide
  rcases takeDriver_ok htake with ⟨hnone, horder, -⟩ | ⟨d, hd, horder, hbusy⟩
  · refine ⟨horders, ?_, ?_, ?_, ?_⟩
    · rw [horder]
      exact hpending
    all_goals
      intro d
      rw [horder, hnone]
      simp
  · have hpayload : payload.assignedDriverId = some d := hfresh.assignedDriverId ▸ hd
    rw [hpayload] at hdriver
    obtain ⟨hknown, hsame₁, hfree⟩ := assertDriverAvailable_ok hdriver
    have horderDriver : prepared.1.assignedDriverId = some d := by
      rw [horder, assignedDriverId_markOrderAssigned]
      exact hd
    have hids : driverIds s₂.working = driverIds s.working := congrArg Prod.snd hsame
    have hids₁ : driverIds s₁.working = driverIds s.working := congrArg Prod.snd h₁
    refine ⟨horders, ?_, ?_, ?_, ?_⟩
    · rw [horder]
      rcases status_markOrderAssigned now
        { fresh with assignedBatteryIds := .ofList prepared.2 } with
        hstatus | hstatus
      · rw [hstatus]
        decide
      · rw [hstatus]
        exact hpending
    · intro d' k hd'
      rw [horderDriver] at hd'
      obtain rfl := Option.some.inj hd'
      rw [← hsame₁]
      exact not_drives_of_activeOrderOf (hsame₁ ▸ hs.visible) (hfree rfl) k
    · intro d' hd'
      rw [horderDriver] at hd'
      obtain rfl := Option.some.inj hd'
      rwa [← hids₁]
    · intro d' hd'
      rw [horderDriver] at hd'
      obtain rfl := Option.some.inj hd'
      refine ⟨s₂, hbusy, ?_⟩
      rwa [hids, ← hids₁]

theorem body_assigned (hs : Assigned s.working.orders) (hids : 0 ∉ driverIds s.working)
    (h : request.body key s = (.ok order, t)) : Assigned t.working.orders := by
  cases request with
  | create now scope payload =>
    rw [Request.body, bind_ok] at h
    obtain ⟨prepared, s₁, hprepare, hstore⟩ := h
    have hprepared := prepareOrder_prepared hs hprepare
    have hnew := (storeOrder_ok hstore).2.1
    rw [hprepared.orders] at hnew
    rw [storeOrder_orders hstore, hprepared.orders]
    refine assigned_insert hs hnew (fun _ => hprepared.listed) ?_ hprepared.free
    exact fun hzero => hids (hprepared.known 0 hzero)
  | update now scope orderId statusUpdate =>
    rw [Request.body] at h
    obtain ⟨loaded, hmem, hupdate⟩ := updateStatus_ok h
    exact updateLoaded_assigned hs hmem hupdate
  | prove now scope orderId pod =>
    rw [Request.body] at h
    exact proveDelivery_assigned hs h
  | assign now scope orderId driverReferences =>
    rw [Request.body, bind_ok] at h
    obtain ⟨driverReference, s₀, hreference, h⟩ := h
    obtain ⟨-, rfl⟩ := lift_ok.mp hreference
    exact assignTo_assigned hs hids h
  | giveBack now scope returnId orderId reason =>
    rw [Request.body] at h
    obtain ⟨original, -, ⟨ids, horder⟩, hnew, horders⟩ := returnDelivered_orders h
    rw [horders]
    have hnone : order.assignedDriverId = none := by
      rw [horder]
      rfl
    refine assigned_insert hs hnew (fun _ => ?_) ?_ ?_
    · rw [horder]
      exact List.mem_cons_self
    · rw [hnone]
      simp
    · rw [hnone]
      simp

end

/-! ## Drivers who are taken -/

def Busy (db : Db) (driverId : ℕ) : Prop :=
  ∃ driver ∈ db.driverProfiles, driver.id = driverId ∧ driver.status = some "busy"

instance (db : Db) (driverId : ℕ) : Decidable (Busy db driverId) :=
  inferInstanceAs (Decidable (∃ driver ∈ db.driverProfiles, _))

variable {db db' : Db}

theorem busy_congr (h : db.driverProfiles = db'.driverProfiles) (driverId : ℕ) :
    Busy db driverId ↔ Busy db' driverId := by
  unfold Busy
  rw [h]

theorem setDriverStatus_ok {now driverId : ℕ}
    (h : setDriverStatus now driverId status s = (.ok u, t)) :
    (driverId ∉ driverIds s.working ∧ t = s) ∨ ∃ driver ∈ s.working.driverProfiles,
      driver.id = driverId ∧ t.working.driverProfiles =
        s.working.driverProfiles.set (driverWithStatus now status driver) := by
  rw [setDriverStatus, look_bind] at h
  rcases hget : s.working.driverProfiles.get? driverId with _ | driver
  · rw [hget] at h
    refine .inl ⟨fun hmem => ?_, (pure_ok.mp h).2.symm⟩
    obtain ⟨driver, hdriver, hid⟩ := Table.mem_keys.mp hmem
    exact Table.get?_eq_none.mp hget driver hdriver hid
  · rw [hget] at h
    obtain ⟨hmem, hid⟩ := Table.get?_eq_some.mp hget
    refine .inr ⟨driver, hmem, hid, ?_⟩
    rw [← update_ok.mp h]

theorem busy_of_taken {now driverId : ℕ} (hknown : driverId ∈ driverIds s.working)
    (h : setDriverStatus now driverId "busy" s = (.ok u, t)) : Busy t.working driverId := by
  rcases setDriverStatus_ok h with ⟨hunknown, -⟩ | ⟨driver, hmem, hid, hset⟩
  · exact absurd hknown hunknown
  · refine ⟨driverWithStatus now "busy" driver, ?_, hid, rfl⟩
    rw [hset]
    exact Table.mem_set.mpr (.inr ⟨rfl, driver, hmem, rfl⟩)

theorem busy_of_other {now driverId k : ℕ}
    (hne : k ≠ driverId) (h : setDriverStatus now k status s = (.ok u, t))
    (hbusy : Busy s.working driverId) : Busy t.working driverId := by
  rcases setDriverStatus_ok h with ⟨-, rfl⟩ | ⟨driver, hmem, hid, hset⟩
  · exact hbusy
  · obtain ⟨x, hx, hxid, hstatus⟩ := hbusy
    refine ⟨x, ?_, hxid, hstatus⟩
    rw [hset]
    refine Table.mem_set.mpr (.inl ⟨hx, fun hkey => hne ?_⟩)
    exact (hid.symm.trans hkey.symm).trans hxid

theorem busy_of_releasePrevious {now driverId : ℕ} {previous : Option ℕ}
    (hne : previous ≠ some driverId) (h : releasePreviousDriver now order previous s = (.ok u, t))
    (hbusy : Busy s.working driverId) : Busy t.working driverId := by
  unfold releasePreviousDriver at h
  rcases htruthy : truthyId previous with _ | k
  · rw [htruthy] at h
    obtain ⟨-, rfl⟩ := pure_ok.mp h
    exact hbusy
  · obtain ⟨hprevious, -⟩ := Option.filter_eq_some_iff.mp htruthy
    rw [htruthy, bind_ok] at h
    obtain ⟨db, s₁, hq, h⟩ := h
    obtain ⟨-, rfl, rfl⟩ := query_ok.mp hq
    have hother : k ≠ driverId := fun hsame => hne (hsame ▸ hprevious)
    rcases hfound : activeOrderOf s.working k (some order.id) with _ | other
    · rw [hfound] at h
      exact busy_of_other hother h hbusy
    · rw [hfound] at h
      obtain ⟨-, rfl⟩ := pure_ok.mp h
      exact hbusy

/-- A request that gives an order a driver, or makes an order with a driver active. -/
def takesDriver : Request → Prop
  | .create .. => True
  | .assign .. => True
  | .update _ _ _ statusUpdate =>
    canonicalOrderStatus statusUpdate.status ∈ ["in_transit", "pending"]
  | .prove .. => False
  | .giveBack .. => False

/-- A confirmation of the driver that an order already has finds the driver busy. -/
def ConfirmsBusy (db : Db) : Request → Prop
  | .assign _ _ orderId driverReferences =>
    ∀ driverReference order driver, extractDriverReference driverReferences = .ok driverReference →
      namedOrder db.orders orderId = some order → resolveDriver db driverReference = some driver →
        order.assignedDriverId = some driver.id → Busy db driver.id
  | _ => True

variable {d : ℕ}

theorem beginDispatch_busy
    (hstatus : newStatus = "in_transit") (h : beginDispatch now order newStatus s = (.ok (), t))
    (hd : order.assignedDriverId = some d) : Busy t.working d := by
  rw [beginDispatch, if_pos hstatus, dispatchDriver, bind_ok] at h
  obtain ⟨k, s₁, hdemand, h⟩ := h
  obtain ⟨htruthy, rfl⟩ := demand_ok.mp hdemand
  obtain ⟨hk, -⟩ := Option.filter_eq_some_iff.mp htruthy
  rw [hd] at hk
  obtain rfl := Option.some.inj hk
  rw [bind_ok] at h
  obtain ⟨_, s₂, hassert, h⟩ := h
  exact busy_of_taken (assertDriverAvailable_ok hassert).1 h

theorem changeDriver_busy {now driverId : ℕ}
    {previous order : Order} (hne : previous.assignedDriverId ≠ some driverId)
    (h : changeDriver now scope key previous driverId s = (.ok order, t))
    (hd : order.assignedDriverId = some d) : Busy t.working d := by
  obtain ⟨horder, found, s₁, s₂, s₃, s₄, s₅, -, -, hsecond, hbusy, hrelease, hrecords⟩ :=
    changeDriver_ok h
  rw [horder, assignedDriverId_withDriver] at hd
  obtain rfl := Option.some.inj hd
  rw [busy_congr (drivers_of_records _ _ hrecords)]
  refine busy_of_releasePrevious hne hrelease (busy_of_taken ?_ hbusy)
  exact (assertDriverAvailable_ok hsecond).1

/-- The state of the orders and drivers that runs keep. -/
structure Sound (db : Db) : Prop where
  assigned : Assigned db.orders
  ids : 0 ∉ driverIds db

theorem sound_congr (h : exceptRecords db = exceptRecords db') (hs : Sound db') :
    Sound db := by
  refine ⟨?_, ?_⟩
  · rw [orders_of_records _ _ h]
    exact hs.assigned
  · rw [driverIds_of_records _ _ h]
    exact hs.ids

/-- The condition on a confirmation does not look at the records of requests. -/
theorem confirmsBusy_congr (h : exceptRecords db = exceptRecords db')
    (hc : ConfirmsBusy db' request) : ConfirmsBusy db request := by
  cases request with
  | assign now scope orderId driverReferences =>
    intro driverReference order driver hreference horder hdriver hsame
    rw [busy_congr (drivers_of_records _ _ h)]
    refine hc driverReference order driver hreference ?_ ?_ hsame
    · rw [← orders_of_records _ _ h]
      exact horder
    · have hresolve : resolveDriver (exceptRecords db) driverReference =
          resolveDriver (exceptRecords db') driverReference := by rw [h]
      exact hresolve.symm.trans hdriver
  | _ => trivial

section

variable [Casing]

theorem updateLoaded_busy {statusUpdate : StatusUpdate} {loaded order : Order}
    (hs : Assigned s.working.orders) (hmem : loaded ∈ s.working.orders)
    (htakes : canonicalOrderStatus statusUpdate.status ∈ ["in_transit", "pending"])
    (h : updateLoaded now scope key statusUpdate loaded s = (.ok order, t))
    (hd : order.assignedDriverId = some d) : Busy t.working d := by
  obtain ⟨hvalid, horder, s₁, s₂, s₃, s₄, hdispatch, hretry, hsync, hend, hrespond⟩ :=
    updateLoaded_ok h
  have hallowed := validateStatusTransition_ok hvalid
  rw [canonical_canonical] at hallowed
  have hd' : loaded.assignedDriverId = some d := by
    rw [horder] at hd
    exact hd
  have hterminal : canonicalOrderStatus statusUpdate.status ∉ terminalStatuses := by
    rcases List.mem_cons.mp htakes with hstatus | hstatus
    · rw [hstatus]
      decide
    · rw [List.mem_singleton.mp hstatus]
      decide
  rw [endDelivery, if_neg hterminal] at hend
  obtain ⟨-, rfl⟩ := pure_ok.mp hend
  have hdrivers := (((fixes_syncBatteriesForOrderStatus _ _ _ _ _).of drivers_of_both).eq hsync).2
  rw [busy_congr (drivers_of_records _ _ (respond_ok hrespond).2), busy_congr hdrivers]
  show Busy s₂.working d
  rcases List.mem_cons.mp htakes with hstatus | hstatus
  · have hnot : ¬ (canonicalOrderStatus loaded.status = "failed" ∧
        canonicalOrderStatus statusUpdate.status = "pending") := by
      rw [hstatus]
      exact fun hpending => absurd hpending.2 (by decide)
    rw [beginRetry, if_neg hnot] at hretry
    obtain ⟨-, rfl⟩ := pure_ok.mp hretry
    exact beginDispatch_busy hstatus hdispatch hd'
  · have hpending := List.mem_singleton.mp hstatus
    have hwas : ¬ active loaded := by
      unfold active
      intro hmem'
      rw [hpending] at hallowed
      rcases List.mem_cons.mp hmem' with hwas | hwas
      · rw [hwas] at hallowed
        exact absurd hallowed (by decide)
      · rw [List.mem_singleton.mp hwas] at hallowed
        exact absurd hallowed (by decide)
    have h₁ := (((fixes_beginDispatch _ _ _).of orders_of_drivers).eq hdispatch).2
    obtain ⟨-, -, s', hbusy, hknown⟩ := beginRetry_onlyFor (h₁ ▸ hs.visible)
      (hs.positive loaded hmem) (failed_of_revived hwas hallowed).1 hpending hretry d hd'
    exact busy_of_taken hknown hbusy

theorem body_busy (hs : Assigned s.working.orders) (htakes : takesDriver request)
    (hconfirms : ConfirmsBusy s.working request) (h : request.body key s = (.ok order, t))
    (hd : order.assignedDriverId = some d) : Busy t.working d := by
  cases request with
  | create now scope payload =>
    rw [Request.body, bind_ok] at h
    obtain ⟨prepared, s₁, hprepare, hstore⟩ := h
    obtain ⟨horder, -, s₂, hrows, hrecords⟩ := storeOrder_ok hstore
    rw [horder] at hd
    obtain ⟨s', hbusy, hknown⟩ := (prepareOrder_prepared hs hprepare).busy d hd
    have hlast := (((fixes_persistOrderBatteries _ _).of drivers_of_rows).eq hrows).2
    rw [busy_congr (drivers_of_records _ _ hrecords), busy_congr hlast]
    show Busy s₁.working d
    exact busy_of_taken hknown hbusy
  | update now scope orderId statusUpdate =>
    rw [Request.body] at h
    obtain ⟨loaded, hmem, hupdate⟩ := updateStatus_ok h
    exact updateLoaded_busy hs hmem htakes hupdate hd
  | prove now scope orderId pod => exact absurd htakes id
  | assign now scope orderId driverReferences =>
    rw [Request.body, bind_ok] at h
    obtain ⟨driverReference, s₀, hlift, h⟩ := h
    obtain ⟨hreference, rfl⟩ := lift_ok.mp hlift
    obtain ⟨previous, driver, hprevious, -, hdriver, hassign⟩ := assignTo_ok h
    rcases hassign with ⟨hsame, hconfirm⟩ | ⟨hne, hchange⟩
    · obtain ⟨horder, hrecords⟩ := confirmDriver_ok hconfirm
      rw [horder, assignedDriverId_markOrderAssigned, hsame] at hd
      obtain rfl := Option.some.inj hd
      rw [busy_congr (drivers_of_records _ _ hrecords)]
      exact hconfirms driverReference previous driver hreference hprevious hdriver hsame
    · exact changeDriver_busy hne hchange hd
  | giveBack now scope returnId orderId reason => exact absurd htakes id

theorem sound_step (request : Request) {db : Db} (hs : Sound db) : Sound (request.step db) := by
  rcases request.step_cases db with hrecords | ⟨key, db₀, order, t, -, hsame, hrun, hstep⟩
  · exact sound_congr hrecords hs
  · have hs₀ := sound_congr hsame hs
    rw [hstep]
    refine ⟨body_assigned (s := .fresh db₀) hs₀.assigned hs₀.ids hrun, ?_⟩
    rw [((Request.fixes_body request key).eq hrun).2]
    exact hs₀.ids

/-- **Driver exclusivity.**  From orders of which no two active ones have one driver and every
active one is stored under a listed spelling, no driver ever has two active orders; and if every
confirmation of a driver finds them busy, every request that is carried out and takes a driver
leaves them busy. -/
theorem drivers_over_runs (db : Db) (requests : List Request)
    (hexclusive : Exclusive (drives db.orders)) (hvisible : Visible db.orders)
    (hids : ∀ order ∈ db.orders, order.assignedDriverId ≠ some 0) (hzero : 0 ∉ driverIds db)
    (hconfirms : Along (fun db request => Request.step request db) ConfirmsBusy db requests) :
    (∀ p q, requests = p ++ q → Exclusive (drives (runRequests db p).orders)) ∧
    ∀ p request q order, requests = p ++ request :: q → takesDriver request →
      ¬ request.Replays (runRequests db p) →
      (request.program.call (runRequests db p)).1 = .ok order →
      ∀ d, order.assignedDriverId = some d → Busy (runRequests db (p ++ [request])) d := by
  have hsound : ∀ p, Sound (runRequests db p) := fun p =>
    run_invariant (fun db request hs => sound_step request hs)
      ⟨⟨hexclusive, hvisible, hids⟩, hzero⟩ p
  refine ⟨fun p q _ => (hsound p).assigned.exclusive, ?_⟩
  intro p request q order hsplit htakes hnew hcall d hd
  have hstep : runRequests db (p ++ [request]) = request.step (runRequests db p) :=
    run_concat db p request
  have hconfirm := along_iff.mp hconfirms p request q hsplit
  rw [hstep, Request.step]
  have houtcome := request.call_outcome (runRequests db p)
  rcases hresult : request.program.call (runRequests db p) with ⟨result, db'⟩
  rw [hresult] at houtcome hcall
  obtain rfl : result = .ok order := hcall
  cases houtcome with
  | answered hreplayed => exact absurd hreplayed hnew
  | carriedOut _ hsame hrun _ =>
    have hs₀ := sound_congr hsame (hsound p)
    exact body_busy (s := .fresh _) hs₀.assigned htakes (confirmsBusy_congr hsame hconfirm) hrun hd

end

/-! ## A run -/

def operator (path : String) : RequestScope :=
  { userId := 1, requestMethod := "PUT", requestPath := path, requestFingerprint := "" }

/-- Order `B` gets driver 7. -/
def assignSecond : Request := .assign 1 (operator "/orders/B/assign-driver") "B" [.text "7"]

/-- Orders `A` and `B` wait, and driver 7 is free. -/
def waitingOrders : Db where
  orders := ⟨[{ id := "A", status := "pending", destination := "Pune", orderDate := 0,
                updatedAt := 0 },
              { id := "B", status := "pending", destination := "Pune", orderDate := 0,
                updatedAt := 0 }], by decide⟩
  driverProfiles := ⟨[{ id := 7, userId := 3, status := some "available" }], by decide⟩

/-- Driver 7 is assigned to order `B`, is confirmed, and is refused to order `A`. -/
def secondOrder : List Request :=
  [assignSecond, assignSecond, .assign 2 (operator "/orders/A/assign-driver") "A" [.text "7"]]

theorem confirmsBusy_of_named {db : Db} {request : Request}
    (h : ∀ order ∈ db.orders, ∀ d ∈ order.assignedDriverId, Busy db d) :
    ConfirmsBusy db request := by
  cases request with
  | assign now scope orderId driverReferences =>
    exact fun _ order driver _ hnamed _ hd => h order (namedOrder_mem hnamed) driver.id hd
  | _ => trivial

theorem drivers_over_runs_sample :
    Exclusive (drives (runRequests waitingOrders secondOrder).orders) ∧
      drives (runRequests waitingOrders secondOrder).orders "B" 7 ∧
      ∀ order, (assignSecond.program.call (runRequests waitingOrders [assignSecond])).1 =
          .ok order → ∀ d, order.assignedDriverId = some d →
        Busy (runRequests waitingOrders [assignSecond, assignSecond]) d := by
  have hnone : ∀ order ∈ waitingOrders.orders, order.assignedDriverId = none := by decide
  have hconfirms : Along (fun db request => Request.step request db) ConfirmsBusy waitingOrders
      secondOrder :=
    ⟨confirmsBusy_of_named (by decide), confirmsBusy_of_named (by decide +kernel),
      confirmsBusy_of_named (by decide +kernel), trivial⟩
  have hfree : Exclusive (drives waitingOrders.orders) := by
    refine exclusive_of_free ?_
    rintro k d ⟨order, hmem, -, hd, -⟩
    rw [hnone order hmem] at hd
    cases hd
  have hrun := drivers_over_runs waitingOrders secondOrder hfree (by decide +kernel)
    (fun order hmem => by simp [hnone order hmem]) (by decide) hconfirms
  refine ⟨hrun.1 secondOrder [] (List.append_nil _).symm, by decide +kernel, fun order => ?_⟩
  refine hrun.2 [assignSecond] assignSecond _ order rfl trivial ?_
  rintro ⟨key, hkey, k, hk, -⟩
  cases hkey
  cases hk

/-- Driver 7 is on the way with order `A`, whose status an older release wrote as `In Transit`;
order `B` has no driver. -/
def legacyOrders : Db where
  orders := ⟨[{ id := "A", status := "In Transit", destination := "Pune", orderDate := 0,
                assignedDriverId := some 7, updatedAt := 0 },
              { id := "B", status := "pending", destination := "Pune", orderDate := 0,
                updatedAt := 0 }], by decide⟩
  driverProfiles := ⟨[{ id := 7, userId := 3, status := some "onRoute" }], by decide⟩

/-- **A driver on two active orders.** -/
theorem driver_on_two_orders :
    Exclusive (drives legacyOrders.orders) ∧
      drives (runRequests legacyOrders [assignSecond]).orders "A" 7 ∧
      drives (runRequests legacyOrders [assignSecond]).orders "B" 7 := by
  refine ⟨?_, by decide +kernel, by decide +kernel⟩
  have honly : ∀ order ∈ legacyOrders.orders, order.assignedDriverId.isSome → order.id = "A" := by
    decide
  rintro d k k' ⟨x, hx, rfl, hd, -⟩ ⟨y, hy, rfl, hd', -⟩
  rw [honly x hx (by rw [hd]; rfl), honly y hy (by rw [hd']; rfl)]

end WezuBackend.Orders.Drivers
