import WezuBackend.Orders.Reservations

/-!
# Batteries that wait at their places

The batteries of an order that has failed wait where they were released to, and those of a retried
one wait there reserved (`Waits`).  Moves of all the batteries lead from one such store to the
next: what is read of the order is the same (`reads_after`), and so is where the batteries are.
-/

namespace WezuBackend.Orders.Waiting

open Lib.Tables Lib.Atomicity Lib.Atomicity.Tx Core.Base Core.Letters Fleet.Model Fleet.Consistency
open Fleet.Transitions Fleet.Shelf Fleet.Acceptance Fleet.Sequences Orders.Normalise Orders.Service
open Orders.Effects Orders.Batteries Orders.BatteryReads Orders.Endings Orders.Reservations

section

variable [Casing]

variable {now : ℕ} {goes : Battery → Transition} {db db' : Db} {order order' : Order}
  {batteries : List Battery} {serials : List String} {b : Battery} {s t : Session Db}

/-! ## Reads after moves -/

/-- The batteries after their moves. -/
def outcomes (now : ℕ) (goes : Battery → Transition) (batteries : List Battery) : List Battery :=
  batteries.map fun y => outcome now (goes y) y

theorem serialsOf_outcomes : serialsOf (outcomes now goes batteries) = serialsOf batteries := by
  unfold serialsOf outcomes
  rw [List.map_map]
  refine List.map_congr_left fun y _ => ?_
  show normal (outcome now (goes y) y).serialNumber = normal y.serialNumber
  rw [outcome_serialNumber, normal_normal]

theorem found_after (h : Found db serials batteries) (hnodup : serials.Nodup)
    (hafter : After now goes db batteries db') :
    Found db' serials (outcomes now goes batteries) := by
  have hapart := h.apart hnodup
  have hmem := fun x => hafter.mem_batteries hapart (x := x)
  -- an old battery that is found has moved
  have hold : ∀ x ∈ db.batteries, sqlUpper x.serialNumber ∈ serials → ∀ y ∈ batteries,
      normal x.serialNumber = normal y.serialNumber → x.id ∈ batteries.map Battery.id := by
    intro x hx hs y hy hsame
    rw [h.alone x hx y (h.mem y hy).1 hs (h.mem y hy).2 hsame]
    exact List.mem_map_of_mem hy
  refine ⟨serialsOf_outcomes.trans h.each, fun x hx => ?_, fun x hx hs => ?_,
    fun x hx y hy hsx hsy hsame => ?_⟩
  · obtain ⟨y, hy, rfl⟩ := List.mem_map.mp hx
    refine ⟨(hmem _).mpr (.inl ⟨y, hy, rfl⟩), ?_⟩
    rw [outcome_serialNumber, sqlUpper_normal, ← h.each]
    exact mem_serialsOf.mpr ⟨y, hy, rfl⟩
  · rcases (hmem x).mp hx with ⟨y, hy, rfl⟩ | ⟨hx', -⟩
    · rw [outcome_serialNumber, normal_normal]
      exact hapart.named y hy
    · exact h.named x hx' hs
  · rcases (hmem x).mp hx with ⟨x', hx', rfl⟩ | ⟨hx', hnx⟩ <;>
      rcases (hmem y).mp hy with ⟨y', hy', rfl⟩ | ⟨hy', hny⟩
    · rw [outcome_serialNumber, outcome_serialNumber, normal_normal, normal_normal] at hsame
      rw [hapart.serial_inj hx' hy' hsame]
    · rw [outcome_serialNumber, normal_normal] at hsame
      exact absurd (hold y hy' hsy x' hx' hsame.symm) hny
    · rw [outcome_serialNumber, normal_normal] at hsame
      exact absurd (hold x hx' hsx y' hy' hsame) hnx
    · exact h.alone x hx' y hy' hsx hsy hsame

/-- All serials of the order have their rows. -/
def Complete (db : Db) (order : Order) : Prop := missingOf db order = []

theorem missingOf_congr (hrows : db'.orderBatteries = db.orderBatteries)
    (hid : order'.id = order.id)
    (hcolumn : order'.assignedBatteryIds = order.assignedBatteryIds) :
    missingOf db' order' = missingOf db order := by
  unfold missingOf
  rw [listedSerials_congr hcolumn, hrows, hid]

theorem batteryIdsOf_of_complete (h : Complete db order) :
    batteryIdsOf db order = serialsAt db.orderBatteries order.id := by
  unfold batteryIdsOf
  rw [h, List.append_nil]

theorem reads_after (h : Reads db order batteries) (hcomplete : Complete db order)
    (hafter : After now goes db batteries db') :
    Reads db' order (outcomes now goes batteries) ∧ Complete db' order := by
  have hrows : db'.orderBatteries = db.orderBatteries := hafter.orderBatteries
  have hmissing : missingOf db' order = missingOf db order := missingOf_congr hrows rfl rfl
  have hids : batteryIdsOf db' order = batteryIdsOf db order := by
    unfold batteryIdsOf
    rw [hmissing, hrows]
  have hnodup : (batteryIdsOf db order).Nodup := by
    rw [batteryIdsOf_of_complete hcomplete]
    exact h.once
  refine ⟨⟨?_, ?_, h.column, ?_, ?_⟩, hmissing.trans hcomplete⟩
  · unfold rowSerials
    rw [hrows]
    exact h.rows
  · rw [hrows]
    exact h.once
  · rw [hmissing, hcomplete]
    exact ⟨[], found_nil db'⟩
  · rw [hids]
    exact found_after h.found hnodup hafter

theorem complete_of_reads (hu : UniqueIndexes s.working) (h : ReadsTo order s batteries t) :
    Reads t.working order batteries ∧ Complete t.working order := by
  obtain ⟨ids, hids, hfetch⟩ := h
  obtain ⟨hreads, -⟩ := (reads_iff hu).mp ⟨t, ids, hids, hfetch⟩
  obtain ⟨-, hrest, hadded, -⟩ := getOrderBatteryIds_left hu hids
  obtain ⟨_, hcolumn⟩ := hreads.column
  have hmissing := missing_of_column s.working hcolumn
  have hserials : serialsAt t.working.orderBatteries order.id = batteryIdsOf s.working order := by
    rw [hadded.serialsAt_self, Fleet.Serials.map_normal hmissing.normal]
    rfl
  have hcomplete : Complete t.working order := by
    refine List.filter_eq_nil_iff.mpr fun serial hserial => ?_
    rw [hserials]
    by_cases hold : serial ∈ serialsAt s.working.orderBatteries order.id
    · simp [batteryIdsOf, hold]
    · have hnew : serial ∈ missingOf s.working order :=
        List.mem_filter.mpr ⟨hserial, decide_eq_true hold⟩
      simp [batteryIdsOf, hnew]
  refine ⟨⟨fun raw hraw => ?_, ?_, hreads.column, ?_, ?_⟩, hcomplete⟩
  · have hmem : normal raw ∈ serialsAt t.working.orderBatteries order.id := by
      rw [← map_rowSerials]
      exact List.mem_map_of_mem hraw
    rw [hserials] at hmem
    exact (batteryIds_normal hreads.rows hmissing _ hmem).2
  · rw [hserials]
    exact batteryIds_nodup hreads.once hmissing
  · rw [hcomplete]
    exact ⟨[], found_nil _⟩
  · rw [batteryIdsOf_of_complete hcomplete, hserials]
    exact hreads.found.of_batteries (batteries_of_rows hrest)

omit [Casing] in
theorem session_ext (hcommitted : t.committed = s.committed) (hworking : t.working = s.working) :
    t = s := by
  cases t
  cases s
  cases hcommitted
  cases hworking
  rfl

theorem readsTo_of_complete (hu : UniqueIndexes s.working) (h : Reads s.working order batteries)
    (hcomplete : Complete s.working order)
    (hsome : batteries = [] → canonicalOrderStatus order.status ∉ ["in_transit", "delivered"]) :
    getOrderBatteryIds order s = (.ok (batteryIdsOf s.working order), s) ∧
      fetchAssigned (batteryIdsOf s.working order) s = (.ok batteries, s) := by
  obtain ⟨t, ids, hids, hfetch⟩ := (reads_iff hu).mpr ⟨h, hsome⟩
  obtain ⟨hcommitted, hrest, ⟨new, hrows, -, hnew⟩, -⟩ := getOrderBatteryIds_left hu hids
  rw [show missingOf s.working order = [] from hcomplete] at hnew
  rw [List.map_eq_nil_iff.mp hnew, List.append_nil] at hrows
  have hsame : t.working.orderBatteries = s.working.orderBatteries := by
    generalize t.working.orderBatteries = rows at hrows
    generalize s.working.orderBatteries = rows' at hrows
    cases rows
    cases rows'
    subst hrows
    rfl
  have hworking : t.working = s.working := by
    have hfill := congrArg
      (fun x : Db => { x with orderBatteries := t.working.orderBatteries }) hrest
    exact hfill.trans (by rw [hsame]; rfl)
  obtain rfl : t = s := session_ext hcommitted hworking
  obtain ⟨-, -, -, -, rfl, -⟩ := (getOrderBatteryIds_iff hu).mp ⟨t, hids⟩
  exact ⟨hids, hfetch⟩

/-! ## Batteries that wait -/

/-- The batteries of the order wait in the status where their shelf rows say, and nothing else has
them. -/
structure Waits (status : BatteryStatus) (db : Db) (order : Order) (batteries : List Battery) :
    Prop where
  reads : Reads db order batteries
  complete : Complete db order
  serial : ∀ b ∈ batteries, normal b.serialNumber = b.serialNumber
  standing : ∀ b ∈ batteries, b.status = status
  shelf : ∀ b ∈ batteries, ShelfState db.shelfBatteries b
  transfers : ∀ b ∈ batteries, transferConflicts db [normal b.serialNumber] none = []
  orders : ∀ b ∈ batteries, ¬ HeldElsewhere db order.id (normal b.serialNumber)

variable {status : BatteryStatus}

theorem waiting_after (hreads : Reads db order batteries) (hcomplete : Complete db order)
    (hafter : After now goes db batteries db')
    (hstatus : ∀ b ∈ batteries, targetStatus (goes b) b = status)
    (htransfers : ∀ b ∈ batteries, transferConflicts db [normal b.serialNumber] none = [])
    (horders : ∀ b ∈ batteries, ¬ HeldElsewhere db order.id (normal b.serialNumber)) :
    Waits status db' order (outcomes now goes batteries) := by
  obtain ⟨hreads', hcomplete'⟩ := reads_after hreads hcomplete hafter
  have hname : ∀ y : Battery, normal (outcome now (goes y) y).serialNumber =
      normal y.serialNumber := by
    intro y
    rw [outcome_serialNumber, normal_normal]
  refine ⟨hreads', hcomplete', ?_, ?_, ?_, ?_, ?_⟩ <;> intro b hb <;>
    obtain ⟨y, hy, rfl⟩ := List.mem_map.mp hb
  · rw [outcome_serialNumber, normal_normal]
  · rw [outcome_status, hstatus y hy]
  · exact hafter.states y hy
  · unfold transferConflicts
    rw [hname, hafter.inventoryTransferItems, hafter.inventoryTransfers]
    exact htransfers y hy
  · unfold HeldElsewhere
    rw [hname, hafter.orderBatteries, hafter.orders]
    exact horders y hy

/-- Nothing has touched the batteries of the order between the two stores: their rows, their shelf
rows and the rows that list them at the order are the same, and no transfer and no other order that
is under way has got one of them. -/
structure Untouched (db db' : Db) (order order' : Order) : Prop where
  id : order'.id = order.id
  column : order'.assignedBatteryIds = order.assignedBatteryIds
  rows : rowSerials db' order.id = rowSerials db order.id
  batteries : ∀ b, sqlUpper b.serialNumber ∈ batteryIdsOf db order →
    (b ∈ db'.batteries ↔ b ∈ db.batteries)
  shelf : ∀ serial ∈ batteryIdsOf db order, shelfRows db' serial = shelfRows db serial
  transfers : ∀ serial ∈ batteryIdsOf db order, transferConflicts db' [serial] none = []
  orders : ∀ serial ∈ batteryIdsOf db order, ¬ HeldElsewhere db' order.id serial

theorem Untouched.serialsAt_eq (h : Untouched db db' order order') :
    serialsAt db'.orderBatteries order'.id = serialsAt db.orderBatteries order.id := by
  rw [h.id, ← map_rowSerials, ← map_rowSerials, h.rows]

theorem Untouched.missingOf_eq (h : Untouched db db' order order') :
    missingOf db' order' = missingOf db order := by
  unfold missingOf
  rw [listedSerials_congr h.column, h.serialsAt_eq]

theorem Untouched.batteryIdsOf_eq (h : Untouched db db' order order') :
    batteryIdsOf db' order' = batteryIdsOf db order := by
  unfold batteryIdsOf
  rw [h.serialsAt_eq, h.missingOf_eq]

theorem mem_shelfRows {row : ShelfBattery} :
    row ∈ shelfRows db (normal b.serialNumber) ↔ row ∈ db.shelfBatteries ∧ RowOf b row := by
  unfold shelfRows
  rw [List.mem_filter, decide_eq_true_eq]
  rfl

theorem Waits.mem_ids (h : Waits status db order batteries) (hb : b ∈ batteries) :
    normal b.serialNumber ∈ batteryIdsOf db order := by
  rw [← h.reads.found.each]
  exact mem_serialsOf.mpr ⟨b, hb, rfl⟩

theorem Waits.untouched (h : Waits status db order batteries)
    (hsame : Untouched db db' order order') : Waits status db' order' batteries := by
  have hmissing : missingOf db' order' = [] := hsame.missingOf_eq.trans h.complete
  have hfound := h.reads.found
  have hmem : ∀ b ∈ batteries, normal b.serialNumber ∈ batteryIdsOf db order := fun b hb =>
    h.mem_ids hb
  refine ⟨⟨?_, ?_, ?_, ⟨[], hmissing ▸ found_nil db'⟩, ?_⟩, hmissing, h.serial, h.standing, ?_, ?_,
    ?_⟩
  · rw [hsame.id, hsame.rows]
    exact h.reads.rows
  · rw [hsame.serialsAt_eq]
    exact h.reads.once
  · have hparse : parseAssignedBatteryIdsJson order' = parseAssignedBatteryIdsJson order := by
      unfold parseAssignedBatteryIdsJson
      rw [hsame.column, hsame.id]
    rw [hparse]
    exact h.reads.column
  · rw [hsame.batteryIdsOf_eq]
    refine ⟨hfound.each, fun x hx => ?_, fun x hx hs => ?_, fun x hx y hy hsx hsy => ?_⟩
    · obtain ⟨hold, hs⟩ := hfound.mem x hx
      exact ⟨(hsame.batteries x hs).mpr hold, hs⟩
    · exact hfound.named x ((hsame.batteries x hs).mp hx) hs
    · exact hfound.alone x ((hsame.batteries x hsx).mp hx) y ((hsame.batteries y hsy).mp hy) hsx hsy
  · intro b hb
    refine (h.shelf b hb).congr fun r hr => ?_
    have hrows : ∀ x : Db, r ∈ x.shelfBatteries ↔ r ∈ shelfRows x (normal b.serialNumber) :=
      fun x => (mem_shelfRows.trans (and_iff_left hr)).symm
    rw [hrows, hsame.shelf _ (hmem b hb), ← hrows]
  · exact fun b hb => hsame.transfers _ (hmem b hb)
  · intro b hb
    rw [hsame.id]
    exact hsame.orders _ (hmem b hb)

/-- Where these tables are the same, nothing has touched the batteries. -/
theorem Waits.untouched_of_same (h : Waits status db order batteries) (hid : order'.id = order.id)
    (hcolumn : order'.assignedBatteryIds = order.assignedBatteryIds)
    (hrows : db'.orderBatteries = db.orderBatteries) (hbatteries : db'.batteries = db.batteries)
    (hshelf : db'.shelfBatteries = db.shelfBatteries)
    (hitems : db'.inventoryTransferItems = db.inventoryTransferItems)
    (htransfers : db'.inventoryTransfers = db.inventoryTransfers)
    (horders : ∀ serial, HeldElsewhere db' order.id serial → HeldElsewhere db order.id serial) :
    Untouched db db' order order' := by
  have hmem : ∀ serial ∈ batteryIdsOf db order,
      ∃ b ∈ batteries, normal b.serialNumber = serial := by
    intro serial hserial
    rw [← h.reads.found.each] at hserial
    exact mem_serialsOf.mp hserial
  refine ⟨hid, hcolumn, ?_, fun b _ => ?_, fun serial _ => ?_, fun serial hs => ?_,
    fun serial hs => ?_⟩
  · unfold rowSerials
    rw [hrows]
  · rw [hbatteries]
  · unfold shelfRows
    rw [hshelf]
  · obtain ⟨b, hb, rfl⟩ := hmem serial hs
    unfold transferConflicts
    rw [hitems, htransfers]
    exact h.transfers b hb
  · obtain ⟨b, hb, rfl⟩ := hmem serial hs
    exact fun hother => h.orders b hb (horders _ hother)

theorem Waits.except (h : Waits status db order batteries)
    (hsame : exceptRecords db' = exceptRecords db ∨ exceptDrivers db' = exceptDrivers db) :
    Waits status db' order batteries := by
  refine h.untouched ?_
  rcases hsame with hsame | hsame
  · obtain ⟨idempotencyKeys, orderRealtimeOutbox, rfl⟩ : ∃ idempotencyKeys orderRealtimeOutbox,
        db' = { db with idempotencyKeys, orderRealtimeOutbox } :=
      ⟨_, _, congrArg (fun x : Db => { x with
        idempotencyKeys := db'.idempotencyKeys
        orderRealtimeOutbox := db'.orderRealtimeOutbox }) hsame⟩
    exact h.untouched_of_same rfl rfl rfl rfl rfl rfl rfl fun _ hother => hother
  · obtain ⟨driverProfiles, rfl⟩ : ∃ driverProfiles, db' = { db with driverProfiles } :=
      ⟨_, congrArg (fun x : Db × List ℕ => { x.1 with
        driverProfiles := db'.driverProfiles }) hsame⟩
    exact h.untouched_of_same rfl rfl rfl rfl rfl rfl rfl fun _ hother => hother

theorem Waits.shelfRows_le (h : Waits status db order batteries) (hb : b ∈ batteries) :
    (shelfRows db (normal b.serialNumber)).length ≤ 1 := by
  have hunique : db.shelfBatteries.Unique fun r =>
      (decide (sqlUpper r.batteryId = normal b.serialNumber) : Bool) := by
    intro r hr r' hr' hrow hrow'
    exact (h.shelf b hb).once r hr r' hr' (of_decide_eq_true hrow) (of_decide_eq_true hrow')
  exact Table.length_filter_le_one hunique

theorem Waits.onItsShelf (h : Waits status db order batteries) (hb : b ∈ batteries)
    (hon : b.locationType = some .shelf) : OnItsShelf db b := by
  obtain ⟨r, hr, hrow⟩ := (h.shelf b hb).shelved.mpr hon
  have hmem := mem_shelfRows.mpr ⟨hr, hrow⟩
  have hlen : (shelfRows db (normal b.serialNumber)).length = 1 :=
    le_antisymm (h.shelfRows_le hb) (List.length_pos_of_mem hmem)
  obtain ⟨x, hx⟩ := List.length_eq_one_iff.mp hlen
  rw [hx, List.mem_singleton] at hmem
  exact ⟨x, hx, hmem ▸ (h.shelf b hb).place r hr hrow⟩

/-! ## The checks on all serials -/

theorem Waits.ids_normal (h : Waits status db order batteries) :
    (∀ serial ∈ batteryIdsOf db order, normal serial = serial ∧ serial ≠ "") ∧
      (batteryIdsOf db order).Nodup := by
  obtain ⟨_, hcolumn⟩ := h.reads.column
  have hmissing := missing_of_column db hcolumn
  exact ⟨batteryIds_normal h.reads.rows hmissing, batteryIds_nodup h.reads.once hmissing⟩

omit [Casing] in
theorem conflicts_of_each {α β : Type} {rows : List α} {get : α → Option β} {serial : α → String}
    {A B : β → Prop} [DecidablePred A] [DecidablePred B]
    (h : ∀ x ∈ serials, (rows.filterMap fun row => ((get row).filter fun o =>
      A o ∧ serial row ∈ [x] ∧ B o).map fun o => (row, o)) = []) :
    (rows.filterMap fun row => ((get row).filter fun o =>
      A o ∧ serial row ∈ serials ∧ B o).map fun o => (row, o)) = [] := by
  refine List.filterMap_eq_nil_iff.mpr fun row hrow => ?_
  rcases hget : get row with _ | o
  · rfl
  by_cases hconflict : A o ∧ serial row ∈ serials ∧ B o
  · obtain ⟨hA, hserial, hB⟩ := hconflict
    have hnone := List.filterMap_eq_nil_iff.mp (h _ hserial) row hrow
    rw [hget, Option.filter_some,
      if_pos (decide_eq_true ⟨hA, List.mem_singleton_self _, hB⟩)] at hnone
    cases hnone
  · rw [Option.filter_some, if_neg (by simpa using hconflict)]
    rfl

theorem normalizeBatterySerials_ids (h : Waits status db order batteries) (field : String) :
    normalizeBatterySerials (batteryIdsOf db order) field false =
      .ok (batteryIdsOf db order) := by
  obtain ⟨hnormal, hnodup⟩ := h.ids_normal
  have hmap : (batteryIdsOf db order).map normal = batteryIdsOf db order :=
    Fleet.Serials.map_normal fun serial hs => (hnormal serial hs).1
  refine normalizeBatterySerials_optional.mpr ⟨fun serial hs => ?_, hmap.symm ▸ hnodup, hmap⟩
  rw [(hnormal serial hs).1]
  exact (hnormal serial hs).2

/-- No other order that is under way and no active transfer has one of the serials. -/
theorem Waits.asserts (h : Waits status s.working order batteries) (hu : UniqueIndexes s.working)
    (hended : Ended s.working order.id) :
    assertBatteriesNotInActiveOrders (batteryIdsOf s.working order) (some order.id) s =
        (.ok (), s) ∧
      assertBatteriesNotInActiveTransfers (batteryIdsOf s.working order) none s = (.ok (), s) := by
  have hids := normalizeBatterySerials_ids h "battery_ids"
  have hquery : query s = (.ok s.working, s) := query_ok.mpr ⟨hu, rfl, rfl⟩
  have hmem : ∀ serial ∈ batteryIdsOf s.working order, ∃ b ∈ batteries,
      normal b.serialNumber = serial := by
    intro serial hserial
    rw [← h.reads.found.each] at hserial
    exact mem_serialsOf.mp hserial
  have horders : orderConflicts s.working (batteryIdsOf s.working order) (some order.id) = [] := by
    refine conflicts_of_each fun serial hserial => ?_
    obtain ⟨b, hb, rfl⟩ := hmem serial hserial
    exact (orderConflicts_iff hended _).mpr (h.orders b hb)
  have htransfers : transferConflicts s.working (batteryIdsOf s.working order) none = [] := by
    refine conflicts_of_each fun serial hserial => ?_
    obtain ⟨b, hb, rfl⟩ := hmem serial hserial
    exact h.transfers b hb
  rw [assertBatteriesNotInActiveOrders, assertBatteriesNotInActiveTransfers, lift_bind hids,
    lift_bind hids]
  by_cases hnil : batteryIdsOf s.working order = []
  · rw [if_pos hnil, if_pos hnil]
    exact ⟨rfl, rfl⟩
  · rw [if_neg hnil, if_neg hnil, bind_of_ok hquery, bind_of_ok hquery, horders, htransfers]
    exact ⟨rfl, rfl⟩

/-! ## All of them are reserved -/

structure AtOpenPlace (db : Db) (b : Battery) : Prop where
  inventory : isInventoryPlace b.locationType = true
  opened : ∀ type ∈ b.locationType, PlaceOpen db type b.locationId

omit [Casing] in
theorem AtOpenPlace.congr (h : AtOpenPlace db b) (hsame : SamePlaces db db') : AtOpenPlace db' b :=
  ⟨h.inventory, fun type htype => (h.opened type htype).congr hsame⟩

omit [Casing] in
theorem AtOpenPlace.type_eq (h : AtOpenPlace db b) : ∃ type, b.locationType = some type ∧
    type ∈ locationTypesRequiringId := by
  have hinventory := of_decide_eq_true h.inventory
  rcases hinventory with hplace | hplace | hplace
  · exact ⟨_, hplace, by decide⟩
  · exact ⟨_, hplace, by decide⟩
  · exact ⟨_, hplace, by decide⟩

variable {before : List Battery}

theorem Waits.reservable_iff (h : Waits .available db order batteries) (hb : b ∈ batteries)
    (hended : Ended db order.id) :
    Reservable db b ∧ Movable (reserved order.id (some order.id)) db before b ↔
      AtOpenPlace db b := by
  have hstatus := h.standing b hb
  have htype : targetLocationType (reserved order.id (some order.id) b) b = b.locationType :=
    Option.or_self
  constructor
  · rintro ⟨hreservable, hmovable⟩
    refine ⟨hreservable.place, fun type hin => ?_⟩
    exact hmovable.placed type (htype.trans hin)
  · intro hplace
    obtain ⟨type, hat, hrequiring⟩ := hplace.type_eq
    have hopen := hplace.opened type hat
    obtain ⟨k, hk, -⟩ := hopen.some_id hrequiring
    refine ⟨⟨by rw [hstatus]; decide, hplace.inventory, by rw [hk]; rfl, h.onItsShelf hb⟩, ?_⟩
    refine ⟨?_, fun hretired => ?_, fun type' hin => ?_, fun htransit => ?_,
      ⟨fun _ => ?_, fun _ => ?_⟩, h.shelfRows_le hb, fun hshelf n hn => .inl ?_⟩
    · show BatteryStatus.reserved ∈ validBatteryStatuses
      decide
    · rw [hstatus] at hretired
      cases hretired
    · exact hplace.opened type' (htype.symm.trans hin)
    · obtain rfl := Option.some.inj (hat.symm.trans (htype.symm.trans htransit))
      exact absurd hrequiring (by decide)
    · exact h.transfers b hb
    · exact (orderConflicts_iff hended _).mpr (h.orders b hb)
    · -- it keeps the row that it has
      obtain ⟨r, hrows, hr⟩ := h.onItsShelf hb (htype.symm.trans hshelf)
      have hmem : r ∈ shelfRows db (normal b.serialNumber) := by
        rw [hrows]
        exact List.mem_singleton_self r
      obtain ⟨hr', hrow⟩ := mem_shelfRows.mp hmem
      exact ⟨r, hr', hrow, Option.some.inj (hr.symm.trans hn)⟩

theorem Waits.apart (h : Waits status db order batteries) : Apart db batteries :=
  h.reads.found.apart h.ids_normal.2

theorem Waits.fetch (h : Waits status s.working order batteries) (hu : UniqueIndexes s.working) :
    fetchAssigned (batteryIdsOf s.working order) s = (.ok batteries, s) :=
  (fetchAssigned_iff hu h.ids_normal.1 h.ids_normal.2).mpr h.reads.found

theorem Waits.reserve_eq (h : Waits .available s.working order batteries)
    (hu : UniqueIndexes s.working) (hended : Ended s.working order.id) :
    reserveOrderBatteries now order.id (batteryIdsOf s.working order) (some order.id) s =
      batteries.forM (reserveBattery now order.id (some order.id)) s := by
  obtain ⟨horders, htransfers⟩ := h.asserts hu hended
  rw [reserveOrderBatteries, bind_of_ok (h.fetch hu), bind_of_ok horders, bind_of_ok htransfers]

theorem Waits.reserve_iff (h : Waits .available s.working order batteries)
    (hu : UniqueIndexes s.working) (hended : Ended s.working order.id) :
    (∃ t, reserveOrderBatteries now order.id (batteryIdsOf s.working order) (some order.id) s =
      (.ok (), t)) ↔ ∀ b ∈ batteries, AtOpenPlace s.working b := by
  rw [h.reserve_eq hu hended, moves_iff (moves_reserve h.apart) h.apart hu]
  constructor
  · intro hall b hb
    obtain ⟨before, after, hl⟩ := List.append_of_mem hb
    exact (h.reservable_iff hb hended).mp (hall before b after hl)
  · rintro hall before b after rfl
    have hb : b ∈ before ++ b :: after := List.mem_append_right _ List.mem_cons_self
    exact (h.reservable_iff hb hended).mpr (hall b hb)

theorem Waits.reserve_run (h : Waits .available s.working order batteries)
    (hu : UniqueIndexes s.working) (hended : Ended s.working order.id)
    (hrun : reserveOrderBatteries now order.id (batteryIdsOf s.working order) (some order.id) s =
      (.ok (), t)) :
    After now (reserved order.id (some order.id)) s.working batteries t.working ∧
      Waits .reserved t.working order
        (outcomes now (reserved order.id (some order.id)) batteries) := by
  rw [h.reserve_eq hu hended] at hrun
  have hafter := moves_run (moves_reserve h.apart) h.apart hu hrun
  exact ⟨hafter, waiting_after h.reads h.complete hafter (fun _ _ => rfl) h.transfers h.orders⟩

/-! ## Updates of the order -/

variable {failureReason : Option String} {actorId : Option ℕ} {newStatus : String}

theorem waits_of_ended (hends : Ends order newStatus) (hu : UniqueIndexes s.working)
    (hended : Ended s.working order.id)
    (h : syncBatteriesForOrderStatus now order newStatus failureReason actorId s = (.ok (), t)) :
    ∃ batteries, Waits .available t.working order batteries := by
  obtain ⟨batteries, s₁, hreads, hall, hafter⟩ := sync_run hends hu hended h
  obtain ⟨hread, hcomplete⟩ := complete_of_reads hu hreads
  have hback : ∀ b ∈ batteries, ∃ before place,
      Returnable s₁.working order newStatus before b place := by
    intro b hb
    obtain ⟨before, after, hl⟩ := List.append_of_mem hb
    obtain ⟨place, hplace⟩ := hall before b after hl
    exact ⟨before, place, (returnable_of_reads hreads hu).mpr hplace⟩
  refine ⟨_, waiting_after hread hcomplete hafter (fun _ _ => rfl) (fun b hb => ?_) fun b hb => ?_⟩
  · obtain ⟨_, _, hreturnable⟩ := hback b hb
    exact hreturnable.transfers
  · obtain ⟨_, _, hreturnable⟩ := hback b hb
    exact hreturnable.orders

theorem Waits.sync_pending (h : Waits status s.working order batteries)
    (hu : UniqueIndexes s.working) (hstatus : canonicalOrderStatus order.status = "pending") :
    syncBatteriesForOrderStatus now order "pending" failureReason actorId s = (.ok (), s) := by
  have hsome : batteries = [] →
      canonicalOrderStatus order.status ∉ ["in_transit", "delivered"] := by
    intro _
    rw [hstatus]
    decide
  obtain ⟨hids, hfetch⟩ := readsTo_of_complete hu h.reads h.complete hsome
  rw [syncBatteriesForOrderStatus, bind_of_ok hids, bind_of_ok hfetch]
  refine syncBatteries_pending fun b hb => ⟨(h.reads.found.mem b hb).1, h.serial b hb, ?_⟩
  rw [← h.serial b hb]
  exact h.apart.named b hb

theorem orderConflicts_named {orderId : String} (hid : orderId ≠ "") {serial : String}
    (h : ¬ HeldElsewhere db orderId serial) : orderConflicts db [serial] (some orderId) = [] := by
  have htruthy : truthy (some orderId) = some orderId := truthy_eq_some.mpr ⟨rfl, hid⟩
  unfold orderConflicts
  refine List.filterMap_eq_nil_iff.mpr fun row hrow => ?_
  rcases hget : db.orders.get? row.orderId with _ | other
  · rfl
  obtain ⟨hother, hkey⟩ := Table.get?_eq_some.mp hget
  rw [Option.filter_some, if_neg]
  · rfl
  · intro hconflict
    obtain ⟨hactive, hserial, hne⟩ := of_decide_eq_true hconflict
    rw [htruthy] at hne
    exact h ⟨row, hrow, List.mem_singleton.mp hserial, other, hother, hkey,
      fun heq => hne (congrArg some heq), hactive⟩

omit [Casing] in
theorem placeOpen_transit (db : Db) : PlaceOpen db .transit none where
  valid := by decide
  some_id h := absurd h (by decide)
  no_id _ := rfl
  warehouse h := by cases h
  station h := by cases h
  shelf h := by cases h

def Stocked (b : Battery) : Prop := isInventoryPlace b.locationType = true ∧ b.locationId.isSome

omit [Casing] in
theorem AtOpenPlace.stocked (h : AtOpenPlace db b) : Stocked b := by
  obtain ⟨type, hat, hrequiring⟩ := h.type_eq
  obtain ⟨k, hk, -⟩ := (h.opened type hat).some_id hrequiring
  exact ⟨h.inventory, by rw [hk]; rfl⟩

theorem Waits.dispatchable (h : Waits .reserved db order batteries) (hb : b ∈ batteries)
    (hid : order.id ≠ "") (hplace : Stocked b) :
    Dispatchable db b ∧ Movable (dispatched order actorId) db before b := by
  have hstatus := h.standing b hb
  refine ⟨⟨.inl hplace.1, fun _ => hplace.2, h.onItsShelf hb⟩, ?_⟩
  refine ⟨?_, fun hretired => ?_, fun type' hin => ?_, fun _ => ?_, ⟨fun _ => ?_, fun _ => ?_⟩,
    h.shelfRows_le hb, fun hshelf => ?_⟩
  · show BatteryStatus.deployed ∈ validBatteryStatuses
    decide
  · rw [hstatus] at hretired
    cases hretired
  · obtain rfl := Option.some.inj hin
    exact placeOpen_transit db
  · show BatteryStatus.deployed ∈ transitCompatibleStatuses
    decide
  · exact h.transfers b hb
  · exact orderConflicts_named hid (h.orders b hb)
  · cases Option.some.inj hshelf

theorem Waits.sync_dispatch (h : Waits .reserved s.working order batteries)
    (hu : UniqueIndexes s.working) (hid : order.id ≠ "") (hsome : batteries ≠ [])
    (hplace : ∀ b ∈ batteries, Stocked b) :
    ∃ t, syncBatteriesForOrderStatus now order "in_transit" failureReason actorId s = (.ok (), t) ∧
      UniqueIndexes t.working := by
  obtain ⟨hids, hfetch⟩ := readsTo_of_complete hu h.reads h.complete fun hnil => absurd hnil hsome
  have hmoves : Moves now (dispatched order actorId) (Dispatchable s.working)
      (syncBattery now order "in_transit" failureReason actorId) s.working batteries :=
    moves_dispatch h.apart
  obtain ⟨t, hrun⟩ := (moves_iff hmoves h.apart hu).mpr fun before b after hl =>
    h.dispatchable (hl ▸ List.mem_append_right _ List.mem_cons_self) hid
      (hplace b (hl ▸ List.mem_append_right _ List.mem_cons_self))
  refine ⟨t, ?_, (moves_run hmoves h.apart hu hrun).unique⟩
  rw [syncBatteriesForOrderStatus, bind_of_ok hids, bind_of_ok hfetch]
  exact hrun

end

end WezuBackend.Orders.Waiting
