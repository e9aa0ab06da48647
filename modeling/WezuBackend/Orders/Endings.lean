import WezuBackend.Orders.BatteryReads

/-!
# The batteries of an order that ends

When an order fails, is cancelled, or is a return that is delivered, each of its batteries goes back
to a place that is looked up for it (`placeFor`), and the transition there checks the place anew.
`sync_iff` says which stores let all of the batteries go back.
-/

namespace WezuBackend.Orders.Endings

open Lib.Tables Lib.Results Lib.Atomicity Lib.Atomicity.Tx Core.Base Core.Letters Fleet.Model
open Fleet.Consistency Fleet.Transitions Fleet.Acceptance Fleet.Sequences Orders.Normalise
open Orders.DispatchEvents Orders.Service Orders.Effects Orders.Batteries Orders.BatteryReads

/-- The update ends the order and its batteries go back: the order fails or is cancelled, or it is a
return that is delivered. -/
inductive Ends (order : Order) : String → Prop
  | failed : Ends order "failed"
  | cancelled : Ends order "cancelled"
  | delivered (h : order.type = "return") : Ends order "delivered"

/-! ## Look-ups in stores that differ elsewhere -/

/-- All that the place of the battery `k` is looked up in. -/
structure SameSources (k : ℕ) (db db' : Db) : Prop extends SamePlaces db db' where
  inventoryTransfers : db'.inventoryTransfers = db.inventoryTransfers
  inventoryTransferItems : db'.inventoryTransferItems = db.inventoryTransferItems
  events : eventsOf db' k = eventsOf db k

variable {db db' : Db} {k : ℕ}

theorem dispatchSource_congr (h : eventsOf db' k = eventsOf db k) (orderId : String) :
    dispatchSource db' k orderId = dispatchSource db k orderId := by
  have hfilter : ∀ db : Db, (db.batteryLifecycleEvents.rows.filter fun e =>
      e.batteryId = k ∧ e.eventType = "dispatched") =
        (eventsOf db k).filter fun e => e.eventType = "dispatched" := by
    intro db
    unfold eventsOf Table.filter
    rw [List.filter_filter]
    refine List.filter_congr fun e _ => ?_
    simp [Bool.and_comm]
  unfold dispatchSource findDispatchEventDescription dispatchEvents
  rw [hfilter, hfilter, h]

theorem getSingle_congr (h : SamePlaces db db') :
    getSingleActiveWarehouseId db' = getSingleActiveWarehouseId db := by
  unfold getSingleActiveWarehouseId
  rw [h.warehouses]

variable {b b' : Battery}

theorem resolveReleaseLocation_congr {order : Order}
    (hsame : SameSources b.id db db') (hid : b'.id = b.id)
    (htype : b'.locationType = b.locationType)
    (hplace : b'.locationId = b.locationId) (place : LocationType × Option ℕ) :
    resolveReleaseLocation db' b' order = .ok place ↔
      resolveReleaseLocation db b order = .ok place := by
  unfold resolveReleaseLocation
  rw [hid, htype, hplace, dispatchSource_congr hsame.events, getSingle_congr hsame.toSamePlaces]
  rcases dispatchSource db b.id order.id with e | source
  · exact Iff.rfl
  rcases getSingleActiveWarehouseId db with _ | single
  · -- nothing is left but the texts of the refusals, which name the batteries' serials
    simp only [bind, Except.bind]
    split
    · rfl
    · rfl
    · rfl
    · rfl
    · split <;> simp
  · exact Iff.rfl

theorem shelfWarehouse_congr (h : SamePlaces db db') (shelfId : Option ℕ) :
    resolveWarehouseFromShelf db' shelfId = resolveWarehouseFromShelf db shelfId := by
  unfold resolveWarehouseFromShelf
  rw [h.shelves, h.racks]

section

variable [Casing]

theorem resolveWarehouse_congr (hsame : SameSources k db db') (serial : String)
    (type : Option LocationType) (locationId : Option ℕ) :
    resolveWarehouseForLocation db' serial type locationId =
      resolveWarehouseForLocation db serial type locationId := by
  have hshelf : resolveWarehouseFromShelf db' = resolveWarehouseFromShelf db :=
    funext (shelfWarehouse_congr hsame.toSamePlaces)
  have hsource : sourceWarehouse db' = sourceWarehouse db := by
    funext transfer
    unfold sourceWarehouse
    rw [hshelf]
  have hhistory : resolveWarehouseFromStationHistory db' serial =
      resolveWarehouseFromStationHistory db serial := by
    funext stationId
    unfold resolveWarehouseFromStationHistory completedTransfersTo
    rw [hsource, hshelf, hsame.inventoryTransfers, hsame.inventoryTransferItems]
  unfold resolveWarehouseForLocation
  rw [hshelf, hhistory]

theorem resolveReturnDelivery_congr {order : Order}
    (hsame : SameSources b.id db db') (hid : b'.id = b.id)
    (htype : b'.locationType = b.locationType) (hplace : b'.locationId = b.locationId)
    (hserial : normal b'.serialNumber = normal b.serialNumber) (warehouseId : ℕ) :
    resolveReturnDeliveryWarehouseId db' b' order = .ok warehouseId ↔
      resolveReturnDeliveryWarehouseId db b order = .ok warehouseId := by
  have hlocation : resolveWarehouseForLocation db' = resolveWarehouseForLocation db := by
    funext serial type locationId
    exact resolveWarehouse_congr hsame serial type locationId
  have hsource : sourceWarehouseId db' = sourceWarehouseId db := by
    funext serial source
    unfold sourceWarehouseId
    rw [hlocation]
  have hfirst : getFirstActiveWarehouseId db' = getFirstActiveWarehouseId db := by
    unfold getFirstActiveWarehouseId
    rw [hsame.warehouses]
  have hdispatch : ∀ orderId, dispatchSource db' b.id orderId = dispatchSource db b.id orderId :=
    dispatchSource_congr hsame.events
  unfold resolveReturnDeliveryWarehouseId
  rw [hid, htype, hplace, hserial, hlocation, hsource, hfirst, getSingle_congr hsame.toSamePlaces]
  simp only [hdispatch]
  rcases dispatchSource db b.id order.id with e | source
  · exact Iff.rfl
  simp only [bind, Except.bind]
  split
  · split
    · simp
    · split <;> simp
  · split <;> simp

/-! ## Where the batteries go back to -/

def placeFor (db : Db) (order : Order) (newStatus : String) (b : Battery) :
    Except Exc (LocationType × Option ℕ) :=
  if newStatus = "delivered" then
    (resolveReturnDeliveryWarehouseId db b order).map fun k => (.warehouse, some k)
  else resolveReleaseLocation db b order

theorem placeFor_congr {order : Order} (hsame : SameSources b.id db db')
    (hid : b'.id = b.id) (htype : b'.locationType = b.locationType)
    (hplace : b'.locationId = b.locationId)
    (hserial : normal b'.serialNumber = normal b.serialNumber) (newStatus : String)
    (place : LocationType × Option ℕ) :
    placeFor db' order newStatus b' = .ok place ↔ placeFor db order newStatus b = .ok place := by
  unfold placeFor
  split_ifs
  · rw [except_map_ok, except_map_ok]
    simp only [resolveReturnDelivery_congr hsame hid htype hplace hserial]
  · exact resolveReleaseLocation_congr hsame hid htype hplace place

/-- The transition of a battery back to the place. -/
def endTransition (order : Order) (newStatus : String) (failureReason : Option String)
    (actorId : Option ℕ) (place : LocationType × Option ℕ) : Transition :=
  let description := s!"Released from order {order.id} due to {newStatus}"
  let reason := if newStatus = "failed" then truthy failureReason else none
  { toStatus := some .available, toLocationType := some place.1, toLocationId := some place.2,
    eventType := if newStatus = "delivered" then "returned" else "released",
    eventDescription :=
      if newStatus = "delivered" then
        s!"Returned to warehouse #{place.2.getD 0} via return order {order.id}"
      else (reason.map fun r => s!"{description}: {r}").getD description
    actorId, excludeOrderId := some order.id }

/-- The transition of a battery of the order. -/
def goesBack (db : Db) (order : Order) (newStatus : String) (failureReason : Option String)
    (actorId : Option ℕ) (b : Battery) : Transition :=
  endTransition order newStatus failureReason actorId
    ((placeFor db order newStatus b).toOption.getD (.transit, none))

variable {now : ℕ} {order : Order} {newStatus : String} {failureReason : Option String}
  {actorId : Option ℕ} {b : Battery} {s t : Session Db}

variable {place : LocationType × Option ℕ}

theorem goesBack_of_ok
    (h : placeFor db order newStatus b = .ok place) (failureReason : Option String)
    (actorId : Option ℕ) :
    goesBack db order newStatus failureReason actorId b =
      endTransition order newStatus failureReason actorId place := by
  unfold goesBack
  rw [h]
  rfl

theorem withSerial_eq (h : normal b.serialNumber ≠ "") :
    withSerial now b s = (.ok (underSerial now b), writtenUnder now b s) := by
  rw [withSerial, lift_bind (normalizeBatterySerial_ok.mpr ⟨h, rfl⟩)]
  rfl

/-- **One battery goes back.** -/
theorem syncBattery_iff (hends : Ends order newStatus) (hname : normal b.serialNumber ≠ "")
    (hu : UniqueIndexes (writtenUnder now b s).working) :
    syncBattery now order newStatus failureReason actorId b s = (.ok (), t) ↔
      ∃ place, placeFor (writtenUnder now b s).working order newStatus (underSerial now b) =
        .ok place ∧ ∃ b', applyBatteryTransition now (underSerial now b)
          (endTransition order newStatus failureReason actorId place) (writtenUnder now b s) =
            (.ok b', t) := by
  have hquery : query (writtenUnder now b s) =
      (.ok (writtenUnder now b s).working, writtenUnder now b s) := query_ok.mpr ⟨hu, rfl, rfl⟩
  have hrelease : ∀ newStatus, newStatus ≠ "delivered" →
      (releaseBattery now order newStatus failureReason actorId (underSerial now b)
        (writtenUnder now b s) = (.ok (), t) ↔
      ∃ place, placeFor (writtenUnder now b s).working order newStatus (underSerial now b) =
        .ok place ∧ ∃ b', applyBatteryTransition now (underSerial now b)
          (endTransition order newStatus failureReason actorId place) (writtenUnder now b s) =
            (.ok b', t)) := by
    intro newStatus hstatus
    rw [releaseBattery, bind_of_ok hquery, bind_ok]
    unfold placeFor endTransition
    rw [if_neg hstatus]
    simp only [if_neg hstatus]
    constructor
    · rintro ⟨place, s₁, hlift, h⟩
      obtain ⟨hplace, rfl⟩ := lift_ok.mp hlift
      obtain ⟨b', s₂, hrun, h⟩ := bind_ok.mp h
      obtain ⟨-, rfl⟩ := pure_ok.mp h
      exact ⟨place, hplace, b', hrun⟩
    · rintro ⟨place, hplace, b', hrun⟩
      exact ⟨place, _, lift_ok.mpr ⟨hplace, rfl⟩, (bind_of_ok hrun).trans rfl⟩
  rw [syncBattery, bind_of_ok (withSerial_eq hname)]
  cases hends with
  | failed => exact hrelease "failed" (by decide)
  | cancelled => exact hrelease "cancelled" (by decide)
  | delivered hreturn =>
    show deliverBattery now order actorId (underSerial now b) (writtenUnder now b s) =
      (.ok (), t) ↔ _
    rw [deliverBattery, if_pos hreturn, bind_of_ok hquery, bind_ok]
    unfold placeFor endTransition
    rw [if_pos rfl]
    simp only [if_pos]
    constructor
    · rintro ⟨warehouseId, s₁, hlift, h⟩
      obtain ⟨hwarehouse, rfl⟩ := lift_ok.mp hlift
      obtain ⟨b', s₂, hrun, h⟩ := bind_ok.mp h
      obtain ⟨-, rfl⟩ := pure_ok.mp h
      exact ⟨(.warehouse, some warehouseId), by rw [hwarehouse]; rfl, b', hrun⟩
    · rintro ⟨place, hplace, b', hrun⟩
      rcases hwarehouse : resolveReturnDeliveryWarehouseId (writtenUnder now b s).working
        (underSerial now b) order with e | warehouseId
      · rw [hwarehouse] at hplace
        cases hplace
      · rw [hwarehouse] at hplace
        obtain rfl := Except.ok.inj hplace
        exact ⟨warehouseId, _, rfl, (bind_of_ok hrun).trans rfl⟩

theorem moves_sync {l : List Battery} (hends : Ends order newStatus) (hapart : Apart db l) :
    Moves now (goesBack db order newStatus failureReason actorId)
      (fun b => ∃ place, placeFor db order newStatus b = .ok place)
      (syncBattery now order newStatus failureReason actorId) db l := by
  intro before b after s t hl hafter
  obtain ⟨hb, hid, -⟩ := hapart.next hl
  have hsame : SameSources b.id db (writtenUnder now b s).working :=
    ⟨⟨hafter.warehouses, hafter.racks, hafter.stations, hafter.shelves⟩,
      hafter.inventoryTransfers, hafter.inventoryTransferItems, hafter.events b.id hid⟩
  have hplace : ∀ place, placeFor (writtenUnder now b s).working order newStatus
      (underSerial now b) = .ok place ↔ placeFor db order newStatus b = .ok place := by
    intro place
    refine placeFor_congr hsame ?_ ?_ ?_ (normal_underSerial now b) newStatus place <;> rfl
  rw [syncBattery_iff hends (hapart.named b hb) (hafter.unique_next hapart hl)]
  constructor
  · rintro ⟨place, hplace', b', hrun⟩
    have hold := (hplace place).mp hplace'
    refine ⟨⟨place, hold⟩, b', ?_⟩
    rw [goesBack_of_ok hold]
    exact hrun
  · rintro ⟨⟨place, hold⟩, b', hrun⟩
    rw [goesBack_of_ok hold] at hrun
    exact ⟨place, (hplace place).mpr hold, b', hrun⟩

/-! ## Which batteries can go back -/

omit [Casing] in
theorem resolveReleaseLocation_ne_transit
    (h : resolveReleaseLocation db b order = .ok place) : place.1 ≠ .transit := by
  have hinventory : ∀ type, isInventoryPlace (some type) = true → type ≠ .transit := by
    rintro _ h rfl
    cases h
  unfold resolveReleaseLocation at h
  obtain ⟨source, -, h⟩ := except_bind_ok.mp h
  split at h
  · obtain rfl := Except.ok.inj h
    simp
  · obtain rfl := Except.ok.inj h
    simp
  · obtain rfl := Except.ok.inj h
    simp
  · obtain rfl := Except.ok.inj h
    simp
  · split at h
    · next htype hplace =>
      obtain rfl := Except.ok.inj h
      split_ifs at hplace with hat
      exact hinventory _ (htype ▸ hat)
    · obtain rfl := Except.ok.inj h
      simp
    · split at h
      · obtain rfl := Except.ok.inj h
        simp
      · cases h

theorem placeFor_ne_transit
    (h : placeFor db order newStatus b = .ok place) : place.1 ≠ .transit := by
  unfold placeFor at h
  split_ifs at h
  · obtain ⟨k, -, rfl⟩ := except_map_ok.mp h
    simp
  · exact resolveReleaseLocation_ne_transit h

variable {shelfId : ℕ}

theorem goesTo_iff : GoesTo (goesBack db order newStatus failureReason actorId)
    shelfId b ↔ placeFor db order newStatus b = .ok (.shelf, some shelfId) := by
  unfold GoesTo goesBack
  rcases placeFor db order newStatus b with e | place
  · simp [Except.toOption, endTransition, targetLocationType]
  · rw [Except.ok.injEq, Prod.ext_iff]
    exact and_congr_left' (Option.some_inj)

/-- There is room on the shelf for the battery: it has its row there, or the rows that stay and
those of the batteries that have gone back there before leave some. -/
def ShelfRoom (db : Db) (order : Order) (newStatus : String) (before : List Battery) (b : Battery)
    (shelfId : ℕ) : Prop :=
  (∃ r ∈ db.shelfBatteries, sqlUpper r.batteryId = normal b.serialNumber ∧ r.shelfId = shelfId) ∨
    ∀ shelf, db.shelves.get? shelfId = some shelf →
      (db.shelfBatteries.filter fun r =>
          r.shelfId = shelfId ∧ sqlUpper r.batteryId ∉ serialsOf before).length +
        (before.filter fun y => placeFor db order newStatus y = .ok (.shelf, some shelfId)).length <
          shelf.capacity

variable {before : List Battery}

theorem roomFor_iff :
    RoomFor (goesBack db order newStatus failureReason actorId) db before b shelfId ↔
      ShelfRoom db order newStatus before b shelfId := by
  unfold RoomFor ShelfRoom
  simp only [goesTo_iff]

/-- Another order that is under way has a row with the serial. -/
def HeldElsewhere (db : Db) (orderId serial : String) : Prop :=
  ∃ row ∈ db.orderBatteries, sqlUpper row.batteryId = serial ∧ ∃ other ∈ db.orders,
    other.id = row.orderId ∧ other.id ≠ orderId ∧ sqlOrderStatus other.status ∈ activeOrderStatuses

/-- The order is not under way. -/
def Ended (db : Db) (orderId : String) : Prop :=
  ∀ o ∈ db.orders, o.id = orderId → sqlOrderStatus o.status ∉ activeOrderStatuses

variable {orderId : String}

theorem orderConflicts_iff (hended : Ended db orderId) (serial : String) :
    orderConflicts db [serial] (some orderId) = [] ↔ ¬ HeldElsewhere db orderId serial := by
  have hexclude : ∀ o : Order, o.id ≠ orderId → some o.id ≠ truthy (some orderId) := by
    intro o hne hsame
    obtain ⟨heq, -⟩ := truthy_eq_some.mp hsame.symm
    exact hne (Option.some.inj heq).symm
  unfold orderConflicts
  rw [List.filterMap_eq_nil_iff]
  constructor
  · rintro h ⟨row, hrow, hserial, other, hother, hid, hne, hactive⟩
    have hget : db.orders.get? row.orderId = some other := Table.get?_eq_some.mpr ⟨hother, hid⟩
    have hnone := h row hrow
    rw [hget, Option.filter_some, if_pos (decide_eq_true
      ⟨hactive, List.mem_singleton.mpr hserial, hexclude other hne⟩)] at hnone
    cases hnone
  · intro h row hrow
    rcases hget : db.orders.get? row.orderId with _ | other
    · rfl
    obtain ⟨hother, hid⟩ := Table.get?_eq_some.mp hget
    rw [Option.filter_some, if_neg]
    · rfl
    · intro hconflict
      obtain ⟨hactive, hserial, -⟩ := of_decide_eq_true hconflict
      refine h ⟨row, hrow, List.mem_singleton.mp hserial, other, hother, hid, fun heq => ?_,
        hactive⟩
      exact hended other hother heq hactive

/-- The battery can go back to the place after those `before` it. -/
structure Returnable (db : Db) (order : Order) (newStatus : String) (before : List Battery)
    (b : Battery) (place : LocationType × Option ℕ) : Prop where
  goes : placeFor db order newStatus b = .ok place
  opened : PlaceOpen db place.1 place.2
  room : place.1 = .shelf → ∀ k, place.2 = some k → ShelfRoom db order newStatus before b k
  unretired : b.status ≠ .retired
  transfers : transferConflicts db [normal b.serialNumber] none = []
  orders : ¬ HeldElsewhere db order.id (normal b.serialNumber)
  once : (shelfRows db (normal b.serialNumber)).length ≤ 1

theorem returnable_iff (hended : Ended db order.id) :
    (∃ place, placeFor db order newStatus b = .ok place) ∧
        Movable (goesBack db order newStatus failureReason actorId) db before b ↔
      ∃ place, Returnable db order newStatus before b place := by
  have hconflicts := orderConflicts_iff hended (normal b.serialNumber)
  constructor
  · rintro ⟨⟨place, hgoes⟩, hm⟩
    have hplace := goesBack_of_ok hgoes failureReason actorId
    obtain ⟨-, hunretired, hplaced, -, hunlocked, honce, hroom⟩ := hm
    rw [hplace] at hunretired hplaced hunlocked hroom
    refine ⟨place, hgoes, hplaced place.1 rfl, fun hshelf k hk => ?_, fun hretired => ?_,
      hunlocked.transfers rfl, hconflicts.mp (hunlocked.orders rfl), honce⟩
    · exact roomFor_iff.mp (hroom (congrArg some hshelf) k hk)
    · cases hunretired hretired
  · rintro ⟨place, h⟩
    have hplace := goesBack_of_ok h.goes failureReason actorId
    refine ⟨⟨place, h.goes⟩, ?_⟩
    constructor
    · rw [hplace]
      show BatteryStatus.available ∈ validBatteryStatuses
      decide
    · exact fun hretired => absurd hretired h.unretired
    · rw [hplace]
      rintro type ⟨⟩
      exact h.opened
    · rw [hplace]
      exact fun htransit => absurd (Option.some.inj htransit) (placeFor_ne_transit h.goes)
    · rw [hplace]
      exact ⟨fun _ => h.transfers, fun _ => hconflicts.mpr h.orders⟩
    · exact h.once
    · intro hshelf k hk
      rw [hplace] at hshelf hk
      exact roomFor_iff.mpr (h.room (Option.some.inj hshelf) k hk)

/-! ## All of them go back -/

theorem heldElsewhere_of_added {serials : List String} (hrest : exceptRows db' = exceptRows db)
    (hadded : Added orderId serials db.orderBatteries db'.orderBatteries) (serial : String) :
    HeldElsewhere db' orderId serial ↔ HeldElsewhere db orderId serial := by
  have horders : db'.orders = db.orders := orders_of_rows _ _ hrest
  unfold HeldElsewhere
  rw [horders]
  constructor
  · rintro ⟨row, hrow, hserial, other, hother, hid, hne, hactive⟩
    rcases hadded.mem hrow with hold | ⟨hown, -⟩
    · exact ⟨row, hold, hserial, other, hother, hid, hne, hactive⟩
    · exact absurd (hid.trans hown) hne
  · rintro ⟨row, hrow, hrest⟩
    exact ⟨row, hadded.old hrow, hrest⟩

variable {order' : Order}

theorem placeFor_order (hid : order'.id = order.id)
    (horiginal : order'.originalOrderId = order.originalOrderId) (newStatus : String)
    (b : Battery) :
    placeFor db order' newStatus b = placeFor db order newStatus b := by
  unfold placeFor resolveReleaseLocation resolveReturnDeliveryWarehouseId
  rw [hid, horiginal]

/-- Whether a battery can go back depends on the places, the transfers, the shelf rows and the other
orders. -/
theorem Returnable.congr
    (h : Returnable db order newStatus before b place) (hsame : ∀ k, SameSources k db db')
    (hrows : db'.shelfBatteries = db.shelfBatteries) (hid : order'.id = order.id)
    (horiginal : order'.originalOrderId = order.originalOrderId)
    (hheld : HeldElsewhere db' order.id (normal b.serialNumber) →
      HeldElsewhere db order.id (normal b.serialNumber)) :
    Returnable db' order' newStatus before b place := by
  have hplace : ∀ (y : Battery) place, placeFor db' order' newStatus y = .ok place ↔
      placeFor db order newStatus y = .ok place := by
    intro y place
    rw [placeFor_order hid horiginal]
    exact placeFor_congr (hsame y.id) rfl rfl rfl rfl newStatus place
  have hsources := hsame b.id
  refine ⟨(hplace b place).mpr h.goes, h.opened.congr hsources.toSamePlaces,
    fun hshelf k hk => ?_, h.unretired, ?_, fun hother => ?_, ?_⟩
  · have hroom := h.room hshelf k hk
    unfold ShelfRoom at hroom ⊢
    simp only [hplace]
    rw [hrows, hsources.shelves]
    exact hroom
  · unfold transferConflicts
    rw [hsources.inventoryTransferItems, hsources.inventoryTransfers]
    exact h.transfers
  · rw [hid] at hother
    exact h.orders (hheld hother)
  · unfold shelfRows
    rw [hrows]
    exact h.once

/-- The batteries of the order can all go back, one after the other. -/
def AllReturn (db : Db) (order : Order) (newStatus : String) (batteries : List Battery) : Prop :=
  ∀ before b after, batteries = before ++ b :: after →
    ∃ place, Returnable db order newStatus before b place

variable {batteries : List Battery}

theorem moves_of_reads (h : ReadsTo order s batteries t)
    (hends : Ends order newStatus) (hu : UniqueIndexes s.working) (now : ℕ)
    (failureReason : Option String) (actorId : Option ℕ) :
    UniqueIndexes t.working ∧ Apart t.working batteries ∧
      Moves now (goesBack t.working order newStatus failureReason actorId)
        (fun b => ∃ place, placeFor t.working order newStatus b = .ok place)
        (syncBattery now order newStatus failureReason actorId) t.working batteries := by
  obtain ⟨ids, hids, hfetch⟩ := h
  obtain ⟨-, -, -, hu'⟩ := getOrderBatteryIds_left hu hids
  obtain ⟨hrows, honce, ⟨_, hcolumn⟩, -, rfl, -⟩ := (getOrderBatteryIds_iff hu).mp ⟨t, hids⟩
  have hmissing := missing_of_column s.working hcolumn
  have hnodup := batteryIds_nodup honce hmissing
  have hfound := (fetchAssigned_iff hu' (batteryIds_normal hrows hmissing) hnodup).mp hfetch
  have hapart := hfound.apart hnodup
  exact ⟨hu', hapart, moves_sync hends hapart⟩

theorem returnable_of_reads {batteries before : List Battery} (h : ReadsTo order s batteries t)
    (hu : UniqueIndexes s.working) :
    Returnable t.working order newStatus before b place ↔
      Returnable s.working order newStatus before b place := by
  obtain ⟨ids, hids, -⟩ := h
  obtain ⟨-, hrest, hadded, -⟩ := getOrderBatteryIds_left hu hids
  have hheld := heldElsewhere_of_added hrest hadded (normal b.serialNumber)
  -- the two stores differ in the rows of the order
  obtain ⟨rows, hrows⟩ : ∃ rows, t.working = { s.working with orderBatteries := rows } :=
    ⟨_, congrArg (fun x : Db => { x with orderBatteries := t.working.orderBatteries }) hrest⟩
  rw [hrows] at hheld ⊢
  constructor
  · intro hback
    exact hback.congr (fun _ => ⟨⟨rfl, rfl, rfl, rfl⟩, rfl, rfl, rfl⟩) rfl rfl rfl hheld.mpr
  · intro hback
    exact hback.congr (fun _ => ⟨⟨rfl, rfl, rfl, rfl⟩, rfl, rfl, rfl⟩) rfl rfl rfl hheld.mp

theorem loop_iff (hends : Ends order newStatus)
    (hu : UniqueIndexes s.working) (hended : Ended s.working order.id)
    (h : ReadsTo order s batteries t) :
    (∃ u, batteries.forM (syncBattery now order newStatus failureReason actorId) t = (.ok (), u)) ↔
      AllReturn s.working order newStatus batteries := by
  obtain ⟨hu', hapart, hmoves⟩ := moves_of_reads h hends hu now failureReason actorId
  have hended' : Ended t.working order.id := by
    obtain ⟨ids, hids, -⟩ := h
    obtain ⟨-, hrest, -, -⟩ := getOrderBatteryIds_left hu hids
    unfold Ended
    rw [orders_of_rows _ _ hrest]
    exact hended
  rw [moves_iff hmoves hapart hu']
  refine forall_congr' fun before => forall_congr' fun b => forall_congr' fun after =>
    imp_congr_right fun _ => ?_
  rw [returnable_iff hended']
  exact exists_congr fun place => returnable_of_reads h hu

theorem sync_run (hends : Ends order newStatus) (hu : UniqueIndexes s.working)
    (hended : Ended s.working order.id)
    (h : syncBatteriesForOrderStatus now order newStatus failureReason actorId s = (.ok (), t)) :
    ∃ batteries s₁, ReadsTo order s batteries s₁ ∧
      AllReturn s.working order newStatus batteries ∧
      After now (goesBack s₁.working order newStatus failureReason actorId) s₁.working batteries
        t.working := by
  rw [syncBatteriesForOrderStatus, bind_ok] at h
  obtain ⟨ids, s₁, hids, h⟩ := h
  obtain ⟨batteries, s₂, hfetch, hrun⟩ := bind_ok.mp h
  obtain rfl := (readOnly_fetchAssigned _).eq hfetch
  have hreads : ReadsTo order s batteries s₂ := ⟨ids, hids, hfetch⟩
  obtain ⟨hu', hapart, hmoves⟩ := moves_of_reads hreads hends hu now failureReason actorId
  exact ⟨batteries, s₂, hreads, (loop_iff hends hu hended hreads).mp ⟨t, hrun⟩,
    moves_run hmoves hapart hu' hrun⟩

theorem sync_iff (hends : Ends order newStatus) (hu : UniqueIndexes s.working)
    (hended : Ended s.working order.id) :
    (∃ t, syncBatteriesForOrderStatus now order newStatus failureReason actorId s = (.ok (), t)) ↔
      ∃ batteries, Reads s.working order batteries ∧
        (batteries = [] → canonicalOrderStatus order.status ∉ ["in_transit", "delivered"]) ∧
          AllReturn s.working order newStatus batteries := by
  constructor
  · rintro ⟨t, h⟩
    obtain ⟨batteries, s₁, hreads, hall, -⟩ := sync_run hends hu hended h
    obtain ⟨hread, hsome⟩ := (reads_iff hu).mp ⟨s₁, hreads⟩
    exact ⟨batteries, hread, hsome, hall⟩
  · rintro ⟨batteries, hreads, hsome, hall⟩
    obtain ⟨t, hread⟩ := (reads_iff hu).mpr ⟨hreads, hsome⟩
    obtain ⟨u, hrun⟩ := (loop_iff hends hu hended hread).mpr hall
    obtain ⟨ids, hids, hfetch⟩ := hread
    exact ⟨u, (bind_of_ok hids).trans ((bind_of_ok hfetch).trans hrun)⟩

end

end WezuBackend.Orders.Endings
