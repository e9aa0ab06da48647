import WezuBackend.Orders.Batteries
import WezuBackend.Orders.Drivers

/-!
# One order a battery

An active order holds the batteries that belong to it.  A creation and a retry ask, before they take
batteries, that no other active order has a row for one of them; as long as the lock sees every
active order and every row (`Kept`), holding stays exclusive.  A return takes the batteries of the
delivered order it is for without asking: it keeps holding exclusive as long as none of them has
been promised again in the meantime (`GivesBackFree`).
-/

namespace WezuBackend.Orders.Exclusivity

open Lib.Tables Lib.Atomicity Lib.Atomicity.Tx Lib.Runs Lib.Holders Core.Base
open Core.Letters Fleet.Model Fleet.Consistency Fleet.Serials Orders.Normalise
open Orders.Service Orders.Effects Orders.Requests Orders.Lifecycle Orders.Drivers Orders.Batteries

/-! ## Orders that hold batteries -/

theorem locked_of_canonical {status : String} (h : canonicalOrderStatus status = status)
    (hactive : canonicalOrderStatus status ∈ ["pending", "in_transit"]) :
    sqlOrderStatus status ∈ activeOrderStatuses := by
  rw [h] at hactive
  rcases List.mem_cons.mp hactive with rfl | hactive
  · decide
  · obtain rfl := List.mem_singleton.mp hactive
    decide

variable {now : ℕ} {order : Order}

theorem locked_markOrderAssigned
    (h : active order → sqlOrderStatus order.status ∈ activeOrderStatuses)
    (hactive : active (markOrderAssignedIfPending now order)) :
    sqlOrderStatus (markOrderAssignedIfPending now order).status ∈ activeOrderStatuses := by
  rcases status_markOrderAssigned now order with hstatus | hstatus
  · rw [hstatus]
    decide
  · rw [hstatus]
    exact h (active_markOrderAssigned.mp hactive)

theorem assignedBatteryIds_markOrderAssigned (now : ℕ) (order : Order) :
    (markOrderAssignedIfPending now order).assignedBatteryIds = order.assignedBatteryIds := by
  unfold markOrderAssignedIfPending
  split_ifs <;> rfl

section

variable [Casing]

/-- The battery of the serial belongs to the order: by a row, or by the old JSON column. -/
def belongs (rows : Table OrderBattery) (order : Order) (serial : String) : Prop :=
  serial ∈ serialsAt rows order.id ∨ serial ∈ listedSerials order

/-- The order is active, and the battery belongs to it. -/
def holds (orders : Table Order) (rows : Table OrderBattery) (orderId serial : String) : Prop :=
  ∃ order ∈ orders, order.id = orderId ∧ active order ∧ belongs rows order serial

instance (rows : Table OrderBattery) (order : Order) (serial : String) :
    Decidable (belongs rows order serial) := by
  unfold belongs
  infer_instance

instance (orders : Table Order) (rows : Table OrderBattery) (orderId serial : String) :
    Decidable (holds orders rows orderId serial) :=
  inferInstanceAs (Decidable (∃ order ∈ orders, _))

/-- What runs keep: no battery has two active orders, and the lock sees all active orders and all
their batteries. -/
structure Kept (orders : Table Order) (rows : Table OrderBattery) : Prop where
  exclusive : Exclusive (holds orders rows)
  visible : ∀ order ∈ orders, active order → sqlOrderStatus order.status ∈ activeOrderStatuses
  spelled : ∀ r ∈ rows, sqlUpper r.batteryId = normal r.batteryId
  indexed : ∀ order ∈ orders, active order → ∀ serial ∈ listedSerials order,
    serial ∈ serialsAt rows order.id
  known : ∀ r ∈ rows, ∃ order ∈ orders, order.id = r.orderId

variable {orders : Table Order} {rows rows' : Table OrderBattery}

variable {s t : Session Db} {serials : List String} {u : Unit}

theorem Kept.onlyFor (h : Kept orders rows) {exclude : Option String}
    (horders : s.working.orders = orders) (hrows : s.working.orderBatteries = rows)
    (hfree : assertBatteriesNotInActiveOrders serials exclude s = (.ok u, t)) {serial k : String}
    (hserial : serial ∈ serials.map normal) (hk : holds orders rows k serial) :
    some k = truthy exclude := by
  obtain ⟨order, hmem, rfl, hactive, hbelongs⟩ := hk
  have hindexed : serial ∈ serialsAt rows order.id := by
    rcases hbelongs with hindexed | hlisted
    · exact hindexed
    · exact h.indexed order hmem hactive serial hlisted
  obtain ⟨r, hr, hid, rfl⟩ := mem_serialsAt.mp hindexed
  refine assertBatteriesNotInActiveOrders_ok (r := r) hfree (hrows ▸ hr) (horders ▸ hmem) hid.symm
    (h.visible order hmem hactive) ?_
  rwa [h.spelled r hr]

variable {orderId : String}

theorem holds_of_added (hadded : Added orderId serials rows rows')
    (hnone : ∀ order ∈ orders, order.id = orderId → active order → serials = []) {k serial : String}
    (h : holds orders rows' k serial) : holds orders rows k serial := by
  obtain ⟨order, hmem, rfl, hactive, hbelongs⟩ := h
  refine ⟨order, hmem, rfl, hactive, hbelongs.imp_left fun hserial => ?_⟩
  by_cases hid : order.id = orderId
  · rw [hid] at hserial ⊢
    rw [hadded.serialsAt_self, hnone order hmem hid hactive] at hserial
    simpa using hserial
  · rwa [hadded.serialsAt_other hid] at hserial

theorem Kept.added (h : Kept orders rows) (hadded : Added orderId serials rows rows')
    (hnormal : ∀ serial ∈ serials, normal serial = serial)
    (hmem : ∃ order ∈ orders, order.id = orderId)
    (hnone : ∀ order ∈ orders, order.id = orderId → active order → serials = []) :
    Kept orders rows' := by
  refine ⟨h.exclusive.mono fun k serial => holds_of_added hadded hnone, h.visible, ?_, ?_, ?_⟩
  · intro r hr
    rcases hadded.mem hr with hr | ⟨-, hserial⟩
    · exact h.spelled r hr
    · rw [← hnormal _ hserial, sqlUpper_normal, normal_normal]
  · intro order horder hactive serial hserial
    obtain ⟨r, hr, hid, hnormal'⟩ :=
      mem_serialsAt.mp (h.indexed order horder hactive serial hserial)
    exact mem_serialsAt.mpr ⟨r, hadded.old hr, hid, hnormal'⟩
  · intro r hr
    rcases hadded.mem hr with hr | ⟨hid, -⟩
    · exact h.known r hr
    · obtain ⟨order, horder, hkey⟩ := hmem
      exact ⟨order, horder, hkey.trans hid.symm⟩

/-- **One order is rewritten**; if it comes to life, its batteries are free and have their rows. -/
theorem Kept.set (h : Kept orders rows) (order' : Order) (hmem : order ∈ orders)
    (hid : order'.id = order.id)
    (hlisted : order'.assignedBatteryIds = order.assignedBatteryIds)
    (hvisible : active order' → sqlOrderStatus order'.status ∈ activeOrderStatuses)
    (hrevived : active order' → ¬ active order →
      (∀ serial ∈ listedSerials order, serial ∈ serialsAt rows order.id) ∧
        ∀ serial, belongs rows order serial → OnlyFor (holds orders rows) order.id serial) :
    Kept (orders.set order') rows := by
  have hcases : ∀ x ∈ orders.set order', x = order' ∨ (x ∈ orders ∧ x.id ≠ order.id) := by
    intro x hx
    rcases Table.mem_set.mp hx with ⟨hx, hne⟩ | ⟨rfl, -⟩
    · exact .inr ⟨hx, fun hkey => hne (hkey.trans hid.symm)⟩
    · exact .inl rfl
  have hbelongs : ∀ serial, belongs rows order' serial ↔ belongs rows order serial := by
    intro serial
    unfold belongs
    rw [hid, listedSerials_congr hlisted]
  refine ⟨?_, ?_, h.spelled, ?_, ?_⟩
  · refine h.exclusive.gain order.id ?_ ?_
    · rintro k serial ⟨x, hx, rfl, hactive, hserial⟩ hne
      rcases hcases x hx with rfl | ⟨hx, -⟩
      · exact absurd hid hne
      · exact ⟨x, hx, rfl, hactive, hserial⟩
    · rintro serial ⟨x, hx, hxid, hactive, hserial⟩
      rcases hcases x hx with rfl | ⟨-, hne⟩
      · rw [hbelongs] at hserial
        by_cases hwas : active order
        · exact h.exclusive.onlyFor ⟨order, hmem, rfl, hwas, hserial⟩
        · exact (hrevived hactive hwas).2 serial hserial
      · exact absurd hxid hne
  · intro x hx hactive
    rcases hcases x hx with rfl | ⟨hx, -⟩
    · exact hvisible hactive
    · exact h.visible x hx hactive
  · intro x hx hactive serial hserial
    rcases hcases x hx with rfl | ⟨hx, -⟩
    · rw [listedSerials_congr hlisted] at hserial
      rw [hid]
      by_cases hwas : active order
      · exact h.indexed order hmem hwas serial hserial
      · exact (hrevived hactive hwas).1 serial hserial
    · exact h.indexed x hx hactive serial hserial
  · intro r hr
    obtain ⟨x, hx, hxid⟩ := h.known r hr
    by_cases hkey : x.id = order.id
    · exact ⟨order', mem_set_self hmem hid, (hid.trans hkey.symm).trans hxid⟩
    · exact ⟨x, mem_set_other hx fun hx' => hkey (hx'.trans hid), hxid⟩

theorem Kept.serialsAt_new (h : Kept orders rows)
    (hnew : orders.get? orderId = none) : serialsAt rows orderId = [] := by
  refine List.eq_nil_iff_forall_not_mem.mpr fun serial hserial => ?_
  obtain ⟨r, hr, hid, -⟩ := mem_serialsAt.mp hserial
  obtain ⟨x, hx, hxid⟩ := h.known r hr
  exact Table.get?_eq_none.mp hnew x hx (hxid.trans hid)

theorem Kept.insert (h : Kept orders rows)
    (hnew : orders.get? order.id = none) (hadded : Added order.id serials rows rows')
    (hnormal : ∀ serial ∈ serials, normal serial = serial)
    (hlisted : ∀ serial ∈ listedSerials order, serial ∈ serials)
    (hvisible : sqlOrderStatus order.status ∈ activeOrderStatuses)
    (hfree : ∀ serial ∈ serials, ∀ k, ¬ holds orders rows k serial) :
    Kept (insertOrder orders order) rows' := by
  have hother : ∀ x ∈ orders, x.id ≠ order.id := fun x hx => Table.get?_eq_none.mp hnew x hx
  have hmap := map_normal hnormal
  have hself : serialsAt rows' order.id = serials := by
    rw [hadded.serialsAt_self, h.serialsAt_new hnew, List.nil_append, hmap]
  refine ⟨?_, ?_, ?_, ?_, ?_⟩
  · refine h.exclusive.gain order.id ?_ ?_
    · rintro k serial ⟨x, hx, rfl, hactive, hserial⟩ hne
      rcases (mem_insertOrder hnew).mp hx with hx | rfl
      · refine ⟨x, hx, rfl, hactive, hserial.imp_left fun hmem => ?_⟩
        rwa [hadded.serialsAt_other (hother x hx)] at hmem
      · exact absurd rfl hne
    · rintro serial ⟨x, hx, hxid, hactive, hserial⟩
      rcases (mem_insertOrder hnew).mp hx with hx | rfl
      · exact absurd hxid (hother x hx)
      · have hmem : serial ∈ serials := by
          rcases hserial with hmem | hmem
          · rwa [hself] at hmem
          · exact hlisted serial hmem
        exact fun k hk => absurd hk (hfree serial hmem k)
  · intro x hx hactive
    rcases (mem_insertOrder hnew).mp hx with hx | rfl
    · exact h.visible x hx hactive
    · exact hvisible
  · intro r hr
    rcases hadded.mem hr with hr | ⟨-, hserial⟩
    · exact h.spelled r hr
    · rw [← hnormal _ hserial, sqlUpper_normal, normal_normal]
  · intro x hx hactive serial hserial
    rcases (mem_insertOrder hnew).mp hx with hx | rfl
    · rw [hadded.serialsAt_other (hother x hx)]
      exact h.indexed x hx hactive serial hserial
    · rw [hself]
      exact hlisted serial hserial
  · intro r hr
    rcases hadded.mem hr with hr | ⟨hid, -⟩
    · obtain ⟨x, hx, hxid⟩ := h.known r hr
      exact ⟨x, (mem_insertOrder hnew).mpr (.inl hx), hxid⟩
    · exact ⟨order, (mem_insertOrder hnew).mpr (.inr rfl), hid.symm⟩

/-! ## Reading the batteries of an order -/

variable {ids : List String}

/-- **The batteries of a stored order are read**: holding does not change, the order has rows for
all of them afterwards, and they are those that belong to it. -/
theorem Kept.read
    (h : Kept s.working.orders s.working.orderBatteries) (hmem : order ∈ s.working.orders)
    (hread : getOrderBatteryIds order s = (.ok ids, t)) :
    Kept t.working.orders t.working.orderBatteries ∧
      (∀ serial, serial ∈ ids ↔ belongs s.working.orderBatteries order serial) ∧
      (∀ serial, serial ∈ serialsAt t.working.orderBatteries order.id ↔ serial ∈ ids) ∧
      (∀ serial, belongs t.working.orderBatteries order serial → serial ∈ ids) ∧
      ∀ k serial, holds t.working.orders t.working.orderBatteries k serial →
        holds s.working.orders s.working.orderBatteries k serial := by
  obtain ⟨rfl, hadded⟩ := getOrderBatteryIds_ok hread
  have horders := (((fixes_getOrderBatteryIds order).of orders_of_rows).eq hread).2
  rw [horders]
  set missing := (listedSerials order).filter
    fun serial => serial ∉ serialsAt s.working.orderBatteries order.id with hmissing
  have hmem_missing : ∀ serial, serial ∈ missing ↔ serial ∈ listedSerials order ∧
      serial ∉ serialsAt s.working.orderBatteries order.id := by
    intro serial
    rw [hmissing, List.mem_filter, decide_eq_true_eq]
  have hnormal : ∀ serial ∈ missing, normal serial = serial := fun serial hserial =>
    normal_of_listed ((hmem_missing serial).mp hserial).1
  have hnone : ∀ x ∈ s.working.orders, x.id = order.id → active x → missing = [] := by
    intro x hx hid hactive
    obtain rfl := Table.eq_of_key hx hmem hid
    refine List.eq_nil_iff_forall_not_mem.mpr fun serial hserial => ?_
    obtain ⟨hlisted, hnew⟩ := (hmem_missing serial).mp hserial
    exact hnew (h.indexed x hx hactive serial hlisted)
  have hself : serialsAt t.working.orderBatteries order.id =
      serialsAt s.working.orderBatteries order.id ++ missing := by
    rw [hadded.serialsAt_self, map_normal hnormal]
  have hids : ∀ serial, serial ∈ serialsAt s.working.orderBatteries order.id ++ missing ↔
      belongs s.working.orderBatteries order serial := by
    intro serial
    unfold belongs
    rw [List.mem_append, hmem_missing]
    tauto
  refine ⟨h.added hadded hnormal ⟨order, hmem, rfl⟩ hnone, hids, ?_, ?_, ?_⟩
  · intro serial
    rw [hself]
  · rintro serial (hserial | hlisted)
    · rwa [hself] at hserial
    · exact (hids serial).mpr (.inr hlisted)
  · exact fun k serial hk => holds_of_added hadded hnone hk

theorem sync_kept {newStatus : String} {failureReason : Option String} {actorId : Option ℕ}
    (h : Kept s.working.orders s.working.orderBatteries) (hmem : order ∈ s.working.orders)
    (hsync : syncBatteriesForOrderStatus now order newStatus failureReason actorId s = (.ok u, t)) :
    Kept t.working.orders t.working.orderBatteries := by
  rw [syncBatteriesForOrderStatus, bind_ok] at hsync
  obtain ⟨ids, s₁, hread, hsync⟩ := hsync
  rw [bind_ok] at hsync
  obtain ⟨batteries, s₂, hfetch, hmoves⟩ := hsync
  obtain rfl := (readOnly_fetchAssigned _).eq hfetch
  have hfixes := fixes_forM
    (fun battery => fixes_syncBattery now order newStatus failureReason actorId battery) batteries
  have horders := ((hfixes.of orders_of_moves).eq hmoves).2
  have hrows : t.working.orderBatteries = s₂.working.orderBatteries :=
    ((hfixes.of batteryRows_of_moves).eq hmoves).2
  rw [horders, hrows]
  exact (h.read hmem hread).1

/-! ## What a request does to the holders -/

variable {db db' : Db}

theorem kept_congr (h : Kept db.orders db.orderBatteries)
    (horders : db'.orders = db.orders) (hrows : batteryRows db' = batteryRows db) :
    Kept db'.orders db'.orderBatteries := by
  rw [horders, show db'.orderBatteries = db.orderBatteries from hrows]
  exact h

/-- An order that is tried again has a row for each of its batteries, and no other active order has
one of them. -/
theorem retryOrder_kept
    (h : Kept s.working.orders s.working.orderBatteries) (hmem : order ∈ s.working.orders)
    (hretry : retryOrder now order s = (.ok u, t)) :
    Kept t.working.orders t.working.orderBatteries ∧
      (∀ serial ∈ listedSerials order, serial ∈ serialsAt t.working.orderBatteries order.id) ∧
      ∀ serial, belongs t.working.orderBatteries order serial →
        OnlyFor (holds t.working.orders t.working.orderBatteries) order.id serial := by
  rw [retryOrder, bind_ok] at hretry
  obtain ⟨ids, s₁, hread, hretry⟩ := hretry
  rw [bind_ok] at hretry
  obtain ⟨_, s₂, hreserve, hdriver⟩ := hretry
  obtain ⟨hkept, hids, hindexed, hown, -⟩ := h.read hmem hread
  have hassert := reserveOrderBatteries_ok hreserve
  have hlast : t.working.orders = s₁.working.orders ∧
      t.working.orderBatteries = s₁.working.orderBatteries := by
    have hmoves := fixes_reserveOrderBatteries now order.id ids (some order.id)
    have h₂ := ((hmoves.of orders_of_moves).eq hreserve).2
    have h₂' := ((hmoves.of batteryRows_of_moves).eq hreserve).2
    have hrest : exceptDrivers t.working = exceptDrivers s₂.working := by
      rcases hd : truthyId order.assignedDriverId with _ | driverId <;> rw [hd] at hdriver
      · exact ((readOnly_pure ()).fixes.eq hdriver).2
      · exact (((fixes_assertDriverAvailableForOrder _ _ _ _).bind fun _ =>
          fixes_setDriverStatus _ _ _).eq hdriver).2
    exact ⟨(orders_of_drivers _ _ hrest).trans h₂, (batteryRows_of_drivers _ _ hrest).trans h₂'⟩
  rw [hlast.1, hlast.2]
  refine ⟨hkept, fun serial hlisted => ?_, fun serial hbelongs k hk => ?_⟩
  · exact (hindexed serial).mpr ((hids serial).mpr (.inr hlisted))
  · have hserial : serial ∈ ids.map normal := by
      have hmem' := hown serial hbelongs
      obtain ⟨r, -, -, rfl⟩ := mem_serialsAt.mp ((hindexed serial).mpr hmem')
      exact List.mem_map.mpr ⟨_, hmem', normal_normal _⟩
    have hsome := hkept.onlyFor rfl rfl hassert hserial hk
    exact Option.some.inj (truthy_eq_some.mp hsome.symm).1.symm

variable {key : Option String} {scope : RequestScope}

theorem updateLoaded_kept {statusUpdate : StatusUpdate} {loaded order : Order}
    (h : Kept s.working.orders s.working.orderBatteries) (hmem : loaded ∈ s.working.orders)
    (hupdate : updateLoaded now scope key statusUpdate loaded s = (.ok order, t)) :
    Kept t.working.orders t.working.orderBatteries := by
  obtain ⟨hvalid, horder, s₁, s₂, s₃, s₄, hdispatch, hretry, hsync, hend, hrespond⟩ :=
    updateLoaded_ok hupdate
  have hrecords := (respond_ok hrespond).2
  have hallowed := validateStatusTransition_ok hvalid
  rw [canonical_canonical] at hallowed
  have hcanonical : canonicalOrderStatus order.status =
      canonicalOrderStatus statusUpdate.status := by
    rw [horder]
    exact canonical_canonical _
  have hdrivers := fixes_beginDispatch now loaded (canonicalOrderStatus statusUpdate.status)
  have horders₁ := ((hdrivers.of orders_of_drivers).eq hdispatch).2
  have hkept₁ := kept_congr h horders₁ ((hdrivers.of batteryRows_of_drivers).eq hdispatch).2
  have horders₂ : s₂.working.orders = s₁.working.orders :=
    congrArg Prod.fst ((fixes_beginRetry _ _ _).eq hretry).2
  rw [← horders₁] at hmem
  have hretried : Kept s₂.working.orders s₂.working.orderBatteries ∧
      (active order → ¬ active loaded →
        (∀ serial ∈ listedSerials loaded, serial ∈ serialsAt s₂.working.orderBatteries loaded.id) ∧
        ∀ serial, belongs s₂.working.orderBatteries loaded serial →
          OnlyFor (holds s₂.working.orders s₂.working.orderBatteries) loaded.id serial) := by
    unfold beginRetry at hretry
    split_ifs at hretry with hagain
    · obtain ⟨hkept, hindexed, honly⟩ := retryOrder_kept hkept₁ hmem hretry
      exact ⟨hkept, fun _ _ => ⟨hindexed, honly⟩⟩
    · obtain ⟨-, rfl⟩ := pure_ok.mp hretry
      refine ⟨hkept₁, fun hactive hwas => absurd (failed_of_revived hwas hallowed) hagain⟩
  rw [← horders₂] at hmem
  have hset := hretried.1.set order hmem (by rw [horder]; rfl) (by rw [horder]; rfl)
    (fun hactive => locked_of_canonical (by rw [hcanonical, horder]; rfl) hactive) hretried.2
  have hwritten : writeOrder loaded order s₂.working.orders = s₂.working.orders.set order := by
    rw [horder, writeOrder_of_mem hmem]
  rw [hwritten] at hsync
  have hkept₃ := sync_kept hset (mem_set_self hmem (by rw [horder]; rfl)) hsync
  have hended := fixes_endDelivery now order (canonicalOrderStatus statusUpdate.status)
  refine kept_congr (kept_congr hkept₃ ((hended.of orders_of_drivers).eq hend).2
    ((hended.of batteryRows_of_drivers).eq hend).2) (orders_of_records _ _ hrecords)
    (batteryRows_of_records _ _ hrecords)

theorem proveDelivery_kept {pod : ProofOfDeliveryCreate}
    (h : Kept s.working.orders s.working.orderBatteries)
    (hprove : proveDelivery now scope key orderId pod s = (.ok order, t)) :
    Kept t.working.orders t.working.orderBatteries := by
  obtain ⟨previous, hnamed, -, imageUrl, signatureUrl, s₁, s₂, horder, hsync, hrelease, hrespond⟩ :=
    proveDelivery_ok hprove
  have hmem := namedOrder_mem hnamed
  have hrecords := (respond_ok hrespond).2
  have hended : ¬ active order := by
    have hstatus : canonicalOrderStatus order.status = "delivered" := by
      rw [horder]
      exact canonical_delivered
    rw [active_of_canonical hstatus]
    decide
  have hid : order.id = previous.id := by rw [horder]; rfl
  have hset := h.set order hmem hid (by rw [horder]; rfl) (fun hactive => absurd hactive hended)
    fun hactive => absurd hactive hended
  have hkept := sync_kept hset (mem_set_self hmem hid) hsync
  have hdrivers := fixes_releaseDriverIfIdle now order
  exact kept_congr (kept_congr hkept ((hdrivers.of orders_of_drivers).eq hrelease).2
    ((hdrivers.of batteryRows_of_drivers).eq hrelease).2) (orders_of_records _ _ hrecords)
    (batteryRows_of_records _ _ hrecords)

theorem Kept.respelled (h : Kept orders rows) (order' : Order)
    (hmem : order ∈ orders) (hid : order'.id = order.id)
    (hlisted : order'.assignedBatteryIds = order.assignedBatteryIds)
    (hactive : active order' ↔ active order)
    (hvisible : active order' → sqlOrderStatus order'.status ∈ activeOrderStatuses) :
    Kept (orders.set order') rows :=
  h.set order' hmem hid hlisted hvisible fun hact hwas => absurd (hactive.mp hact) hwas

theorem Kept.unassigned (h : Kept orders rows) (hmem : order ∈ orders) (now : ℕ) :
    Kept (orders.set (unassigned now order)) rows := by
  have hactive : active (Service.unassigned now order) ↔ active order := by
    unfold active
    rw [canonical_unassigned]
  refine h.respelled _ hmem (id_unassigned now order) ?_ hactive fun hact => ?_
  · unfold Service.unassigned
    rfl
  · have hlocked := h.visible order hmem (hactive.mp hact)
    unfold Service.unassigned
    dsimp only
    split_ifs
    · decide
    · exact hlocked

omit [Casing] in
theorem fixes_takeOver_rows (now driverId : ℕ) (order : Order) :
    Fixes batteryRows (takeOver now driverId order) :=
  fixes_takeOver_of (fun _ _ => rfl) batteryRows_of_drivers _ _ _

theorem changeDriver_kept {now driverId : ℕ} {previous order : Order}
    (h : Kept s.working.orders s.working.orderBatteries) (hmem : previous ∈ s.working.orders)
    (hchange : changeDriver now scope key previous driverId s = (.ok order, t)) :
    Kept t.working.orders t.working.orderBatteries := by
  obtain ⟨horder, found, s₁, s₂, s₃, s₄, s₅, hfirst, htake, hsecond, hbusy, hrelease, hrecords⟩ :=
    changeDriver_ok hchange
  have hassert := fun check =>
    fixes_assertDriverAvailableForOrder driverId (some previous.id) false check
  have horders₁ := (((hassert false).of orders_of_drivers).eq hfirst).2
  have hkept₁ := kept_congr h horders₁ (((hassert false).of batteryRows_of_drivers).eq hfirst).2
  rw [← horders₁] at hmem
  have hrows₂ : s₂.working.orderBatteries = s₁.working.orderBatteries :=
    ((fixes_takeOver_rows now driverId previous).eq htake).2
  have htaken : Kept s₂.working.orders s₂.working.orderBatteries ∧
      previous ∈ s₂.working.orders := by
    rw [hrows₂]
    rcases takeOver_orders htake with hsame | ⟨conflicting, hconflicting, hne, -, hset⟩
    · rw [hsame]
      exact ⟨hkept₁, hmem⟩
    · rw [hset]
      refine ⟨hkept₁.unassigned hconflicting now, mem_set_other hmem fun hkey => hne ?_⟩
      rw [hkey, id_unassigned]
  have hkept₃ := kept_congr htaken.1 (((hassert true).of orders_of_drivers).eq hsecond).2
    (((hassert true).of batteryRows_of_drivers).eq hsecond).2
  have hmem₃ := htaken.2
  rw [← (((hassert true).of orders_of_drivers).eq hsecond).2] at hmem₃
  have hset := hkept₃.respelled order hmem₃
    (by rw [horder, withDriver, id_markOrderAssigned])
    (by rw [horder, withDriver, assignedBatteryIds_markOrderAssigned])
    (by rw [horder, withDriver]; exact active_markOrderAssigned)
    (by rw [horder, withDriver]; exact locked_markOrderAssigned (hkept₃.visible previous hmem₃))
  have hbusy' := fixes_setDriverStatus now driverId "busy"
  have hrelease' := fixes_releasePreviousDriver now order previous.assignedDriverId
  have hkept₄ := @kept_congr _ { s₃.working with orders := s₃.working.orders.set order } _ hset
    ((hbusy'.of orders_of_drivers).eq hbusy).2 ((hbusy'.of batteryRows_of_drivers).eq hbusy).2
  exact kept_congr (kept_congr hkept₄ ((hrelease'.of orders_of_drivers).eq hrelease).2
    ((hrelease'.of batteryRows_of_drivers).eq hrelease).2) (orders_of_records _ _ hrecords)
    (batteryRows_of_records _ _ hrecords)

theorem assignTo_kept {orderId driverReference : String}
    (h : Kept s.working.orders s.working.orderBatteries)
    (hassign : assignTo now scope key orderId driverReference s = (.ok order, t)) :
    Kept t.working.orders t.working.orderBatteries := by
  obtain ⟨previous, driver, hprevious, -, -, hcases⟩ := assignTo_ok hassign
  have hmem := namedOrder_mem hprevious
  rcases hcases with ⟨-, hconfirm⟩ | ⟨-, hchange⟩
  · obtain ⟨horder, hrecords⟩ := confirmDriver_ok hconfirm
    have hset := h.respelled order hmem (by rw [horder, id_markOrderAssigned])
      (by rw [horder, assignedBatteryIds_markOrderAssigned])
      (by rw [horder]; exact active_markOrderAssigned)
      (by rw [horder]; exact locked_markOrderAssigned (h.visible previous hmem))
    refine @kept_congr _ { s.working with orders := s.working.orders.set order } _ hset ?_ ?_
    · exact orders_of_records _ _ hrecords
    · exact batteryRows_of_records _ _ hrecords
  · exact changeDriver_kept h hmem hchange

theorem Kept.store {committed db : Db} {t : Session Db} (h : Kept db.orders db.orderBatteries)
    (hnew : db.orders.get? order.id = none)
    (hrows : persistOrderBatteries order.id ids
      ⟨committed, { db with orders := insertOrder db.orders order }⟩ = (.ok u, t))
    (hlisted : ∀ serial ∈ listedSerials order, serial ∈ ids.map normal)
    (hvisible : sqlOrderStatus order.status ∈ activeOrderStatuses)
    (hfree : ∀ serial ∈ ids.map normal, ∀ k, ¬ holds db.orders db.orderBatteries k serial) :
    Kept t.working.orders t.working.orderBatteries := by
  have hadded := persistOrderBatteries_ok hrows
  have hall : (ids.map normal).filter
      (fun serial => serial ∉ serialsAt db.orderBatteries order.id) = ids.map normal := by
    rw [h.serialsAt_new hnew]
    exact List.filter_eq_self.mpr fun serial _ => decide_eq_true List.not_mem_nil
  dsimp only at hadded
  rw [hall] at hadded
  have horders := (((fixes_persistOrderBatteries _ _).of orders_of_rows).eq hrows).2
  rw [horders]
  refine h.insert hnew hadded ?_ hlisted hvisible hfree
  intro serial hserial
  obtain ⟨raw, -, rfl⟩ := List.mem_map.mp hserial
  exact normal_normal raw

theorem listedSerials_ofList
    (h : order.assignedBatteryIds = .ofList ids) : listedSerials order = ids.map normal := by
  unfold listedSerials
  rw [h, SerialsJson.ofList]
  dsimp only
  rw [List.filterMap_map]
  exact congrFun List.filterMap_eq_map' ids

theorem create_kept {payload : OrderCreate} {prepared : Order × List String} {s s₁ t : Session Db}
    (h : Kept s.working.orders s.working.orderBatteries)
    (hprepare : prepareOrder now payload s = (.ok prepared, s₁))
    (hstore : storeOrder now scope key prepared.1 prepared.2 s₁ = (.ok order, t)) :
    Kept t.working.orders t.working.orderBatteries := by
  obtain ⟨-, fresh, u₁, u₂, hfresh, -, hdriver, hreserve, htake⟩ := prepareOrder_ok hprepare
  obtain ⟨-, hnew, s₂, hrows, hrecords⟩ := storeOrder_ok hstore
  have hassert := fixes_assertNewDriver payload.assignedDriverId
  have hmoves := fixes_reserveOrderBatteries now fresh.id prepared.2 none
  have hdriver' := fixes_takeDriver now { fresh with assignedBatteryIds := .ofList prepared.2 }
  have hkept₁ := kept_congr h ((hassert.of orders_of_drivers).eq hdriver).2
    ((hassert.of batteryRows_of_drivers).eq hdriver).2
  have horders : s₁.working.orders = u₁.working.orders :=
    ((hdriver'.of orders_of_drivers).eq htake).2.trans ((hmoves.of orders_of_moves).eq hreserve).2
  have hrows₁ : s₁.working.orderBatteries = u₁.working.orderBatteries :=
    ((hdriver'.of batteryRows_of_drivers).eq htake).2.trans
      ((hmoves.of batteryRows_of_moves).eq hreserve).2
  have hfree : ∀ serial ∈ prepared.2.map normal, ∀ k,
      ¬ holds s₁.working.orders s₁.working.orderBatteries k serial := by
    intro serial hserial k hk
    rw [horders, hrows₁] at hk
    have hsome := hkept₁.onlyFor rfl rfl (reserveOrderBatteries_ok hreserve) hserial hk
    cases hsome
  have hstatus : sqlOrderStatus fresh.status ∈ activeOrderStatuses := by
    rw [hfresh.status]
    decide
  have horder : prepared.1.assignedBatteryIds = .ofList prepared.2 ∧
      sqlOrderStatus prepared.1.status ∈ activeOrderStatuses := by
    rcases takeDriver_ok htake with ⟨-, hsame, -⟩ | ⟨d, -, hsame, -⟩
    · rw [hsame]
      exact ⟨rfl, hstatus⟩
    · rw [hsame, assignedBatteryIds_markOrderAssigned]
      refine ⟨rfl, locked_markOrderAssigned (fun _ => hstatus) ?_⟩
      rw [active_markOrderAssigned, active, hfresh.status, canonical_pending]
      exact List.mem_cons_self
  have hkept : Kept s₁.working.orders s₁.working.orderBatteries := by
    rw [horders, hrows₁]
    exact hkept₁
  refine kept_congr (hkept.store hnew hrows ?_ horder.2 hfree) (orders_of_records _ _ hrecords)
    (batteryRows_of_records _ _ hrecords)
  rw [listedSerials_ofList horder.1]
  exact fun serial hserial => hserial

/-- A return of the order takes only batteries that no active order has. -/
def FreeToReturn (db : Db) (orderId : String) : Prop :=
  ∀ original, namedOrder db.orders orderId = some original →
    canonicalOrderStatus original.status = "delivered" → openReturnOf db original.id = none →
      ∀ serial, belongs db.orderBatteries original serial →
        ∀ k, ¬ holds db.orders db.orderBatteries k serial

theorem returnDelivered_kept {returnId orderId reason : String}
    (h : Kept s.working.orders s.working.orderBatteries) (hfree : FreeToReturn s.working orderId)
    (hreturn : returnDelivered now scope key returnId orderId reason s = (.ok order, t)) :
    Kept t.working.orders t.working.orderBatteries := by
  obtain ⟨original, ids, s₁, s₂, s₃, horiginal, hdelivered, hopen, hread, horder, hnew,
    hmoves, hrows,
    hrecords⟩ := returnDelivered_ok hreturn
  obtain ⟨-, hnamed⟩ := resolveOrderOr404_named horiginal
  obtain ⟨hkept, hids, hindexed, -, hholds⟩ := h.read (namedOrder_mem hnamed) hread
  have horders₂ := orders_of_moves _ _ hmoves
  have hrows₂ : s₂.working.orderBatteries = s₁.working.orderBatteries :=
    batteryRows_of_moves _ _ hmoves
  have hkept₂ : Kept s₂.working.orders s₂.working.orderBatteries := by
    rw [horders₂, hrows₂]
    exact hkept
  rw [← horders₂] at hnew
  refine kept_congr (hkept₂.store hnew hrows ?_ ?_ ?_) (orders_of_records _ _ hrecords)
    (batteryRows_of_records _ _ hrecords)
  · intro serial hserial
    by_cases hnil : ids = []
    · have hblank : order.assignedBatteryIds = .blank := by rw [horder, returnOrder, if_pos hnil]
      rw [listedSerials, hblank] at hserial
      cases hserial
    · have hlist : order.assignedBatteryIds =
        .ofList ids := by rw [horder, returnOrder, if_neg hnil]
      rwa [listedSerials_ofList hlist] at hserial
  · rw [horder]
    show sqlOrderStatus "pending" ∈ activeOrderStatuses
    decide
  · intro serial hserial k hk
    obtain ⟨id, hid, rfl⟩ := List.mem_map.mp hserial
    have hnormal : normal id = id := by
      obtain ⟨r, -, -, rfl⟩ := mem_serialsAt.mp ((hindexed id).mpr hid)
      exact normal_normal _
    rw [horders₂, hrows₂, hnormal] at hk
    exact hfree original hnamed hdelivered hopen id ((hids id).mp hid) k (hholds k id hk)

/-! ## Runs -/

/-- A return that is carried out is of an order whose batteries no active order has. -/
def GivesBackFree (db : Db) : Request → Prop
  | .giveBack now scope _ orderId _ => Replayed now scope db ∨ FreeToReturn db orderId
  | _ => True

theorem freeToReturn_congr (h : exceptRecords db' = exceptRecords db)
    (hfree : FreeToReturn db orderId) : FreeToReturn db' orderId := by
  have hsame : ∀ db, FreeToReturn db orderId ↔ FreeToReturn (exceptRecords db) orderId :=
    fun _ => Iff.rfl
  rw [hsame, h, ← hsame]
  exact hfree

theorem body_kept {request : Request} (h : Kept s.working.orders s.working.orderBatteries)
    (hfree : ∀ now scope returnId orderId reason,
      request = .giveBack now scope returnId orderId reason → FreeToReturn s.working orderId)
    (hrun : request.body key s = (.ok order, t)) :
    Kept t.working.orders t.working.orderBatteries := by
  cases request with
  | create now scope payload =>
    rw [Request.body, bind_ok] at hrun
    obtain ⟨prepared, s₁, hprepare, hstore⟩ := hrun
    exact create_kept h hprepare hstore
  | update now scope orderId statusUpdate =>
    rw [Request.body] at hrun
    obtain ⟨loaded, hmem, hupdate⟩ := updateStatus_ok hrun
    exact updateLoaded_kept h hmem hupdate
  | prove now scope orderId pod =>
    rw [Request.body] at hrun
    exact proveDelivery_kept h hrun
  | assign now scope orderId driverReferences =>
    rw [Request.body, bind_ok] at hrun
    obtain ⟨driverReference, s₀, hreference, hassign⟩ := hrun
    obtain ⟨-, rfl⟩ := lift_ok.mp hreference
    exact assignTo_kept h hassign
  | giveBack now scope returnId orderId reason =>
    rw [Request.body] at hrun
    exact returnDelivered_kept h (hfree _ _ _ _ _ rfl) hrun

theorem step_kept (request : Request) {db : Db} (h : Kept db.orders db.orderBatteries)
    (hfree : GivesBackFree db request) :
    Kept (request.step db).orders (request.step db).orderBatteries := by
  rcases request.step_cases db with hrecords | ⟨key, db₀, order, t, hnew, hsame, hrun, hstep⟩
  · exact kept_congr h (orders_of_records _ _ hrecords) (batteryRows_of_records _ _ hrecords)
  · rw [hstep]
    refine body_kept (s := .fresh db₀) ?_ ?_ hrun
    · exact kept_congr h (orders_of_records _ _ hsame) (batteryRows_of_records _ _ hsame)
    · rintro now scope returnId orderId reason rfl
      rcases hfree with hreplayed | hfree
      · exact absurd hreplayed hnew
      · exact freeToReturn_congr hsame hfree

/-- **Order exclusivity.**  From a store in which no battery has two active orders and the lock sees
all of them, no battery ever has two active orders, if every return that is carried out is of an
order whose batteries no active order has. -/
theorem orders_exclusive_over_runs (db : Db) (requests : List Request)
    (hstart : Kept db.orders db.orderBatteries)
    (hfree : Along (fun db request => Request.step request db) GivesBackFree db requests) :
    ∀ p q, requests = p ++ q →
      Exclusive (holds (runRequests db p).orders (runRequests db p).orderBatteries) := by
  rintro p q rfl
  exact (run_invariant_of_along (I := fun db => Kept db.orders db.orderBatteries)
    (fun db request h hf => step_kept request h hf) hstart (along_append.mp hfree).1).exclusive

end

/-! ## A battery that is promised again -/

/-- Battery `B1` is at warehouse 5, and driver 7 is free. -/
def depot : Db where
  batteries := ⟨[{ id := 1, serialNumber := "B1", locationId := some 5 }], by decide⟩
  warehouses := ⟨[{ id := 5 }], by decide⟩
  driverProfiles := waitingOrders.driverProfiles

/-- An order of battery `B1`, with driver 7. -/
def orderOf (orderId : String) : Request :=
  .create 1 (operator "/orders")
    { generatedId := orderId, units := 1, destination := "Pune", assignedBatteryIds := ["B1"],
      assignedDriverId := some 7 }

def proofOf (orderId : String) : Request :=
  .prove 1 (operator "/orders/pod") orderId { imageUrl := "/uploads/pod.jpg" }

/-- A return of order `O1`. -/
def returnOf (returnId : String) : Request :=
  .giveBack 1 (operator "/orders/O1/return") returnId "O1" "faulty"

/-- Order `O1` is delivered and returned, and the battery is ordered again. -/
def orderedAgain : List Request :=
  [orderOf "O1", proofOf "O1", returnOf "R1",
    .assign 1 (operator "/orders/R1/assign-driver") "R1" [.text "7"], proofOf "R1", orderOf "O2"]

theorem kept_depot : Kept depot.orders depot.orderBatteries := by
  have horders : ∀ order, order ∉ depot.orders := Table.not_mem_empty
  have hrows : ∀ r, r ∉ depot.orderBatteries := Table.not_mem_empty
  refine ⟨exclusive_of_free ?_, ?_, ?_, ?_, ?_⟩
  · rintro k serial ⟨order, hmem, -⟩
    exact horders order hmem
  · exact fun order hmem => absurd hmem (horders order)
  · exact fun r hr => absurd hr (hrows r)
  · exact fun order hmem => absurd hmem (horders order)
  · exact fun r hr => absurd hr (hrows r)

theorem orders_exclusive_over_runs_sample :
    holds (runRequests depot orderedAgain).orders (runRequests depot orderedAgain).orderBatteries
        "O2" "B1" ∧
      Exclusive (holds (runRequests depot orderedAgain).orders
        (runRequests depot orderedAgain).orderBatteries) := by
  have hdelivered : ∀ order ∈ (runRequests depot [orderOf "O1", proofOf "O1"]).orders,
      ¬ active order := by
    decide +kernel
  refine ⟨by decide +kernel, orders_exclusive_over_runs depot orderedAgain kept_depot
    ⟨trivial, trivial, .inr ?_, trivial, trivial, trivial, trivial⟩ _ []
    (List.append_nil _).symm⟩
  rintro original - - - serial - k ⟨order, hmem, -, hactive, -⟩
  exact hdelivered order hmem hactive

/-- **A second return** of order `O1` takes the battery that order `O2` has. -/
theorem battery_on_two_orders :
    holds (runRequests depot (orderedAgain ++ [returnOf "R2"])).orders
        (runRequests depot (orderedAgain ++ [returnOf "R2"])).orderBatteries "O2" "B1" ∧
      holds (runRequests depot (orderedAgain ++ [returnOf "R2"])).orders
        (runRequests depot (orderedAgain ++ [returnOf "R2"])).orderBatteries "R2" "B1" := by
  decide +kernel

end WezuBackend.Orders.Exclusivity
