import WezuBackend.Manifests.Service
import WezuBackend.Fleet.Acceptance

/-!
# Bringing in a battery

An update with the status of a battery that has arrived finds or creates the battery of its serial
and moves it into the warehouse.  `Arrivable` lists what that asks for, all of it about the rows of
the serial and about tables that a receipt never writes; `Brought` says what it leaves, and that the
rows of other serials stay (`receiveBattery_ok`, `receiveBattery_of_arrivable`).
-/

namespace WezuBackend.Manifests.Intake

open Lib.Tables Lib.Atomicity Lib.Atomicity.Tx
open Core.Letters Fleet.Model
open Fleet.Consistency Fleet.Transitions Fleet.Acceptance
open Inventory.Operations (intakeBattery)
open Manifests.Service hiding flush query commitAll

def arrival : ItemStatus → Option BatteryStatus
  | .scanned => some .available
  | .damaged => some .maintenance
  | .extra => some .available
  | .missing => none
  | .pending => none

theorem intake_none {r : Receipt} {u : ItemUpdate} (h : arrival u.status = none) :
    intake r u = none := by
  unfold intake
  rcases hs : u.status <;> simp_all [arrival]

theorem arrival_cases {s : ItemStatus} {status : BatteryStatus} (h : arrival s = some status) :
    status = .available ∨ status = .maintenance := by
  rcases s <;> cases h <;> simp

def place (b : Battery) : BatteryStatus × Option LocationType × Option ℕ :=
  (b.status, b.locationType, b.locationId)

/-- The tables that the arrival of a battery does not write. -/
def elsewhere (db : Db) : Db :=
  { db with batteries := .empty, shelfBatteries := .empty, batteryLifecycleEvents := .empty }

theorem sameChecks_of_elsewhere {db db' : Db} (h : elsewhere db' = elsewhere db) :
    SameChecks db db' := by
  have hself : SameChecks db (elsewhere db) := ⟨⟨rfl, rfl, rfl, rfl⟩, rfl, rfl, rfl, rfl⟩
  rw [← h] at hself
  exact ⟨⟨hself.warehouses, hself.racks, hself.stations, hself.shelves⟩,
    hself.inventoryTransfers, hself.inventoryTransferItems, hself.orders, hself.orderBatteries⟩

section

variable [Casing]

/-- The batteries that the code takes for the serial's. -/
def batteriesOf (db : Db) (serial : String) : List Battery :=
  db.batteries.filter fun b => sqlUpper b.serialNumber = serial

variable {b : Battery} {db : Db}

theorem mem_batteriesOf {serial : String} :
    b ∈ batteriesOf db serial ↔ b ∈ db.batteries ∧ sqlUpper b.serialNumber = serial := by
  rw [batteriesOf, Table.mem_filter, decide_eq_true_eq]

theorem batteriesOf_congr {db db' : Db} (h : db'.batteries = db.batteries) (serial : String) :
    batteriesOf db' serial = batteriesOf db serial := by
  unfold batteriesOf
  rw [h]

omit [Casing] in
theorem uniqueIndexes_batteries {batteries : Table Battery} (hu : UniqueIndexes db)
    (h : ∀ b ∈ batteries, ∀ b' ∈ batteries, b.serialNumber = b'.serialNumber → b.id = b'.id) :
    UniqueIndexes { db with batteries } := ⟨h, hu.shelfBatteries, hu.orderBatteries⟩

/-- A row of the serial put in the place of the one that was there. -/
theorem batteriesOf_set {serial : String} {b x : Battery}
    (hrows : batteriesOf db serial = [b]) (hid : x.id = b.id)
    (hx : sqlUpper x.serialNumber = serial) :
    batteriesOf { db with batteries := db.batteries.set x } serial = [x] ∧
      ∀ k, k ≠ serial →
        batteriesOf { db with batteries := db.batteries.set x } k = batteriesOf db k := by
  have hb : b ∈ batteriesOf db serial := by rw [hrows]; exact List.mem_singleton_self b
  obtain ⟨hmem, hserial⟩ := mem_batteriesOf.mp hb
  have hold : ∀ y ∈ db.batteries, Row.key y = Row.key x → sqlUpper y.serialNumber = serial := by
    intro y hy hkey
    rw [Table.eq_of_key hy hmem (hkey.trans hid)]
    exact hserial
  constructor
  · unfold batteriesOf at hrows ⊢
    rw [Table.filter_set fun y hy hkey => by rw [hold y hy hkey, hx], hrows]
    simp [hid]
  · intro k hk
    unfold batteriesOf
    refine Table.filter_set_of_not ?_ fun y hy hkey => ?_
    · rw [hx]
      exact decide_eq_false (Ne.symm hk)
    · rw [hold y hy hkey]
      exact decide_eq_false (Ne.symm hk)

variable {s t : Session Db}

theorem getBatteryBySerial_ok {serial : String} (hnormal : normal serial = serial)
    {o : Option Battery} : getBatteryBySerial serial s = (.ok o, t) ↔
      (serial ≠ "" ∧ UniqueIndexes s.working ∧ (batteriesOf s.working serial).length ≤ 1) ∧
        (batteriesOf s.working serial).head? = o ∧ s = t := by
  simp only [getBatteryBySerial, bind_ok, lift_ok, normalizeBatterySerial_ok, query_ok, ensure_ok,
    pure_ok, hnormal]
  constructor
  · rintro ⟨_, _, ⟨⟨hne, rfl⟩, rfl⟩, _, _, ⟨hu, rfl, rfl⟩, _, _, ⟨honce, rfl⟩, hhead, rfl⟩
    exact ⟨⟨hne, hu, honce⟩, hhead, rfl⟩
  · rintro ⟨⟨hne, hu, honce⟩, hhead, rfl⟩
    exact ⟨_, _, ⟨⟨hne, rfl⟩, rfl⟩, _, _, ⟨hu, rfl, rfl⟩, (), _, ⟨honce, rfl⟩, hhead, rfl⟩

/-- The rows of one serial are one row, and the others are as they were. -/
theorem serials_of_one {db db' : Db} {serial : String} (hu : UniqueIndexes db)
    (hone : batteriesOf db' serial = [b])
    (hothers : ∀ k, k ≠ serial → batteriesOf db' k = batteriesOf db k) :
    ∀ x ∈ db'.batteries, ∀ y ∈ db'.batteries, x.serialNumber = y.serialNumber → x.id = y.id := by
  intro x hx y hy hserial
  by_cases hxs : sqlUpper x.serialNumber = serial
  · have hx' := mem_batteriesOf.mpr ⟨hx, hxs⟩
    have hy' := mem_batteriesOf.mpr ⟨hy, hserial ▸ hxs⟩
    rw [hone] at hx' hy'
    rw [List.mem_singleton.mp hx', List.mem_singleton.mp hy']
  · have hx' := mem_batteriesOf.mpr ⟨hx, rfl⟩
    have hy' := mem_batteriesOf.mpr ⟨hy, rfl⟩
    rw [hothers _ hxs] at hx'
    rw [hothers _ (hserial ▸ hxs)] at hy'
    exact hu.serials x (mem_batteriesOf.mp hx').1 y (mem_batteriesOf.mp hy').1 hserial

/-! ## The battery of a serial -/

/-- The battery of the serial, found or created, and nothing else touched. -/
structure Fetched (serial : String) (db db' : Db) (b : Battery) : Prop where
  one : batteriesOf db' serial = [b]
  others : ∀ k, k ≠ serial → batteriesOf db' k = batteriesOf db k
  unique : UniqueIndexes db'
  serialNumber : b.serialNumber = serial
  found : ∀ x ∈ batteriesOf db serial, x.id = b.id ∧ x.status = b.status
  created : batteriesOf db serial = [] → b.status = .available
  shelfBatteries : db'.shelfBatteries = db.shelfBatteries
  rest : elsewhere db' = elsewhere db

theorem fetched_renamed (now : ℕ) {serial : String}
    (hnormal : normal serial = serial) (hu : UniqueIndexes db)
    (hrows : batteriesOf db serial = [b]) :
    Fetched serial db { db with batteries := db.batteries.set (renamed now serial b) }
      (renamed now serial b) := by
  have hupper : sqlUpper serial = serial := by rw [← hnormal, sqlUpper_normal]
  obtain ⟨hone, hothers⟩ := batteriesOf_set (x := renamed now serial b) hrows rfl hupper
  refine ⟨hone, hothers, uniqueIndexes_batteries hu (serials_of_one hu hone hothers), rfl, ?_, ?_,
    rfl, rfl⟩
  · intro x hx
    rw [hrows] at hx
    rw [List.mem_singleton.mp hx]
    exact ⟨rfl, rfl⟩
  · intro hnone
    rw [hrows] at hnone
    cases hnone

theorem fetched_created {now warehouseId : ℕ} {serial : String}
    {events : Table BatteryLifecycleEvent} (hnormal : normal serial = serial)
    (hrows : batteriesOf db serial = [])
    (hu : UniqueIndexes { db with
      batteries := db.batteries.add (intakeBattery now serial warehouseId) }) :
    Fetched serial db
      { db with
        batteries := db.batteries.add (intakeBattery now serial warehouseId)
        batteryLifecycleEvents := events }
      (intakeBattery now serial warehouseId db.batteries.freshKey) := by
  have hupper : sqlUpper serial = serial := by rw [← hnormal, sqlUpper_normal]
  refine ⟨?_, ?_, ⟨hu.serials, hu.shelfBatteries, hu.orderBatteries⟩, rfl, ?_, fun _ => rfl, rfl,
    rfl⟩
  · unfold batteriesOf at hrows ⊢
    dsimp only
    rw [Table.filter_add_mk (fun _ => rfl), hrows]
    simp [intakeBattery, hupper]
  · intro k hk
    unfold batteriesOf
    dsimp only
    rw [Table.filter_add_mk (fun _ => rfl)]
    simp [intakeBattery, hupper, Ne.symm hk]
  · intro x hx
    rw [hrows] at hx
    cases hx

theorem uniqueIndexes_created {now warehouseId : ℕ} {serial : String}
    (hnormal : normal serial = serial) (hu : UniqueIndexes db)
    (hrows : batteriesOf db serial = []) :
    UniqueIndexes { db with
      batteries := db.batteries.add (intakeBattery now serial warehouseId) } := by
  have hupper : sqlUpper serial = serial := by rw [← hnormal, sqlUpper_normal]
  have hnew : ∀ x ∈ db.batteries, x.serialNumber ≠ serial := by
    intro x hx hserial
    have hmem : x ∈ batteriesOf db serial :=
      mem_batteriesOf.mpr ⟨hx, (congrArg sqlUpper hserial).trans hupper⟩
    rw [hrows] at hmem
    cases hmem
  refine uniqueIndexes_batteries hu fun x hx y hy hserial => ?_
  rcases (Table.mem_add_mk fun _ => rfl).mp hx with hx | rfl <;>
    rcases (Table.mem_add_mk fun _ => rfl).mp hy with hy | rfl
  · exact hu.serials x hx y hy hserial
  · exact absurd hserial (hnew x hx)
  · exact absurd hserial.symm (hnew y hy)
  · rfl

variable {now warehouseId actorId : ℕ} {serial : String}

theorem getOrCreateBattery_ok (hnormal : normal serial = serial)
    (h : getOrCreateBattery now serial warehouseId actorId s = (.ok b, t)) :
    (batteriesOf s.working serial).length ≤ 1 ∧ t.committed = s.committed ∧
      Fetched serial s.working t.working b := by
  obtain ⟨normalized, _, hlift, h⟩ := bind_ok.mp h
  obtain ⟨hserial, rfl⟩ := lift_ok.mp hlift
  obtain ⟨-, rfl⟩ := normalizeBatterySerial_ok.mp hserial
  rw [hnormal] at h
  obtain ⟨o, _, hfound, h⟩ := bind_ok.mp h
  obtain ⟨⟨-, hu, honce⟩, rfl, rfl⟩ := (getBatteryBySerial_ok hnormal).mp hfound
  refine ⟨honce, ?_⟩
  rcases hrows : batteriesOf s.working serial with _ | ⟨x, _ | ⟨y, rows⟩⟩
  · rw [hrows] at h
    simp only [List.head?_nil, bind_ok, look_ok, update_ok, flush_ok, addLifecycleEvent,
      pure_ok] at h
    obtain ⟨_, _, ⟨rfl, rfl⟩, _, _, rfl, _, _, ⟨hunique, rfl⟩, _, _, rfl, rfl, rfl⟩ := h
    exact ⟨rfl, fetched_created hnormal hrows hunique⟩
  · rw [hrows] at h
    simp only [List.head?_cons, bind_ok, saveBattery_ok, pure_ok] at h
    obtain ⟨_, _, rfl, rfl, rfl⟩ := h
    exact ⟨rfl, fetched_renamed now hnormal hu hrows⟩
  · rw [hrows] at honce
    simp at honce

theorem getOrCreateBattery_of_once (hnormal : normal serial = serial) (hne : serial ≠ "")
    {s : Session Db} (hu : UniqueIndexes s.working)
    (honce : (batteriesOf s.working serial).length ≤ 1) :
    ∃ b t, getOrCreateBattery now serial warehouseId actorId s = (.ok b, t) := by
  have hserial : normalizeBatterySerial serial = .ok serial :=
    normalizeBatterySerial_ok.mpr ⟨by rwa [hnormal], hnormal⟩
  have hfound := (getBatteryBySerial_ok hnormal).mpr ⟨⟨hne, hu, honce⟩, rfl, rfl⟩
  unfold getOrCreateBattery
  rw [lift_bind hserial, bind_of_ok hfound]
  rcases hrows : batteriesOf s.working serial with _ | ⟨x, rows⟩
  · rw [List.head?_nil]
    have hunique := @uniqueIndexes_created _ _ now warehouseId serial hnormal hu hrows
    dsimp only
    rw [look_bind, update_bind, bind_of_ok (flush_ok (u := ()).mpr ⟨hunique, rfl⟩)]
    exact ⟨_, _, rfl⟩
  · exact ⟨_, _, rfl⟩

/-! ## The arrival -/

/-- What the arrival of the serial's battery in the warehouse asks for. -/
structure Arrivable (warehouseId : ℕ) (serial : String) (db : Db) : Prop where
  once : (batteriesOf db serial).length ≤ 1
  unretired : ∀ b ∈ batteriesOf db serial, b.status ≠ .retired
  open_place : PlaceOpen db .warehouse (some warehouseId)
  transfers : transferConflicts db [serial] none = []
  orders : orderConflicts db [serial] none = []
  shelved : (shelfRows db serial).length ≤ 1

/-- What it leaves: the battery `id` of the serial in the warehouse, on no shelf. -/
structure Brought (warehouseId : ℕ) (status : BatteryStatus) (serial : String) (db db' : Db)
    (id : ℕ) : Prop where
  arrived : ∃ b, batteriesOf db' serial = [b] ∧ b.id = id ∧ b.serialNumber = serial ∧
    place b = (status, some .warehouse, some warehouseId)
  others : ∀ k, k ≠ serial → batteriesOf db' k = batteriesOf db k
  same : ∀ b ∈ batteriesOf db serial, b.id = id
  unshelved : shelfRows db' serial = []
  otherShelved : ∀ k, k ≠ serial → shelfRows db' k = shelfRows db k
  unique : UniqueIndexes db'
  rest : elsewhere db' = elsewhere db

theorem mem_shelfRows {row : ShelfBattery} :
    row ∈ shelfRows db serial ↔ row ∈ db.shelfBatteries ∧ sqlUpper row.batteryId = serial := by
  rw [shelfRows, List.mem_filter, decide_eq_true_eq]
  exact Iff.rfl

variable {a : Option ShelfBattery}

theorem shelfRows_dropped
    (ha : ∀ row, (row ∈ db.shelfBatteries ∧ sqlUpper row.batteryId = serial) ↔ a = some row) :
    shelfRows { db with shelfBatteries := dropped db.shelfBatteries a } serial = [] ∧
      ∀ k, k ≠ serial →
        shelfRows { db with shelfBatteries := dropped db.shelfBatteries a } k = shelfRows db k := by
  constructor
  · refine List.eq_nil_iff_forall_not_mem.mpr fun row hrow => ?_
    obtain ⟨hmem, hserial⟩ := mem_shelfRows.mp hrow
    obtain ⟨hold, hne⟩ := (mem_dropped fun x hx => ((ha x).mpr hx).1).mp hmem
    exact hne ((ha row).mp ⟨hold, hserial⟩)
  · intro k hk
    rcases a with _ | row
    · rfl
    · obtain ⟨hrow, hserial⟩ := (ha row).mpr rfl
      refine Table.filter_erase_of_not fun x hx hkey => ?_
      rw [Table.eq_of_key hx hrow hkey, hserial]
      exact decide_eq_false (Ne.symm hk)

variable {args : Transition} {status : BatteryStatus}

structure ToWarehouse (args : Transition) (status : BatteryStatus) (warehouseId : ℕ) : Prop where
  toStatus : args.toStatus = some status
  toLocationType : args.toLocationType = some .warehouse
  toLocationId : args.toLocationId = some (some warehouseId)
  excludeTransfer : args.excludeTransferId = none
  excludeOrder : args.excludeOrderId = none
  transfers : args.skipActiveTransferCheck = false
  orders : args.skipActiveOrderCheck = false
  known : status = .available ∨ status = .maintenance

omit [Casing] in
theorem intake_some {r : Receipt} {u : ItemUpdate} (h : arrival u.status = some status) :
    ∃ args, intake r u = some args ∧ ToWarehouse args status r.warehouseId := by
  have hknown := arrival_cases h
  unfold intake
  rcases hs : u.status <;> rw [hs] at h <;> cases h <;>
    exact ⟨_, rfl, rfl, rfl, rfl, rfl, rfl, rfl, rfl, hknown⟩

theorem brought_of_transitioned {db db₁ db' : Db}
    (hargs : ToWarehouse args status warehouseId) (hnormal : normal serial = serial)
    (hfetched : Fetched serial db db₁ b) (h : Transitioned now args b a db₁ db') :
    Brought warehouseId status serial db db' b.id := by
  have htype : targetLocationType args b = some .warehouse := by
    rw [targetLocationType, hargs.toLocationType, Option.some_or]
  have hserial : normal b.serialNumber = serial := by rw [hfetched.serialNumber, hnormal]
  have hupper : sqlUpper (outcome now args b).serialNumber = serial := by
    rw [outcome_serialNumber, sqlUpper_normal, hserial]
  have hset := batteriesOf_set hfetched.one (outcome_id now args b) hupper
  have hrows : ∀ k, batteriesOf db' k =
      batteriesOf { db₁ with batteries := db₁.batteries.set (outcome now args b) } k :=
    fun k => batteriesOf_congr h.batteries k
  have hdropped : db'.shelfBatteries = dropped db₁.shelfBatteries a := by
    have hreshelved := h.reshelved
    rw [htype] at hreshelved
    generalize db'.shelfBatteries = rows at hreshelved ⊢
    cases hreshelved
    rfl
  have hassigned := h.assigned
  rw [hserial] at hassigned
  obtain ⟨hnone, hother⟩ := shelfRows_dropped hassigned
  have hshelf : ∀ k, shelfRows db' k =
      shelfRows { db₁ with shelfBatteries := dropped db₁.shelfBatteries a } k := by
    intro k
    unfold shelfRows
    rw [hdropped]
  have hunique : UniqueIndexes { db₁ with
      batteries := db₁.batteries.set (renamed now (normal b.serialNumber) b) } := by
    have hrenamed := fetched_renamed now hnormal hfetched.unique hfetched.one
    rw [hserial]
    exact hrenamed.unique
  refine ⟨⟨outcome now args b, ?_, outcome_id _ _ _, ?_, ?_⟩, ?_, fun x hx =>
    (hfetched.found x hx).1, ?_, ?_, uniqueIndexes_of_transitioned h hunique, ?_⟩
  · rw [hrows, hset.1]
  · rw [outcome_serialNumber, hserial]
  · rw [place, outcome_status, outcome_locationType, outcome_locationId, h.storedLocationId_eq,
      htype, targetStatus, hargs.toStatus, targetLocationId, hargs.toLocationId]
    rfl
  · intro k hk
    rw [hrows, hset.2 k hk, hfetched.others k hk]
  · rw [hshelf, hnone]
  · intro k hk
    rw [hshelf, hother k hk]
    unfold shelfRows
    rw [hfetched.shelfBatteries]
  · exact (congrArg elsewhere h.rest).trans hfetched.rest

theorem transitionable_iff {db db₁ : Db} (hne : serial ≠ "")
    (hargs : ToWarehouse args status warehouseId) (hnormal : normal serial = serial)
    (honce : (batteriesOf db serial).length ≤ 1) (hfetched : Fetched serial db db₁ b) :
    Transitionable now args b db₁ ↔ Arrivable warehouseId serial db := by
  have hserial : normal b.serialNumber = serial := by rw [hfetched.serialNumber, hnormal]
  have htype : targetLocationType args b = some .warehouse := by
    rw [targetLocationType, hargs.toLocationType, Option.some_or]
  have hid : targetLocationId args b = some warehouseId := by
    rw [targetLocationId, hargs.toLocationId, Option.getD_some]
  have hstatus : targetStatus args b = status := by
    rw [targetStatus, hargs.toStatus, Option.getD_some]
  have hchecks : SameChecks db db₁ := sameChecks_of_elsewhere hfetched.rest
  have hback : SameChecks db₁ db := sameChecks_of_elsewhere hfetched.rest.symm
  have hshelf : shelfRows db₁ serial = shelfRows db serial := by
    unfold shelfRows
    rw [hfetched.shelfBatteries]
  have hne_retired : status ≠ .retired := by
    rcases hargs.known with rfl | rfl <;> decide
  constructor
  · intro h
    have hopen : PlaceOpen db₁ .warehouse (some warehouseId) := hid ▸ h.placed .warehouse htype
    have hunlocked := h.unlocked.congr hback
    rw [hserial] at hunlocked
    have htransfers := hunlocked.transfers hargs.transfers
    have horders := hunlocked.orders hargs.orders
    rw [hargs.excludeTransfer] at htransfers
    rw [hargs.excludeOrder] at horders
    refine ⟨honce, fun x hx hretired => ?_, hopen.congr hback.toSamePlaces, htransfers, horders, ?_⟩
    · have hsame := (hfetched.found x hx).2
      have htarget := h.unretired (hsame.symm.trans hretired)
      exact hne_retired (hstatus.symm.trans htarget)
    · have hrows := h.once
      rwa [hserial, hshelf] at hrows
  · intro h
    have hrenamed := fetched_renamed now hnormal hfetched.unique hfetched.one
    refine ⟨by rwa [hserial], ?_, ?_, ?_, ?_, ?_, ?_, ?_, ?_⟩
    · rw [hserial]
      exact hrenamed.unique
    · rw [hstatus]
      rcases hargs.known with rfl | rfl <;> decide
    · intro hretired
      rcases hrows : batteriesOf db serial with _ | ⟨x, rows⟩
      · rw [hfetched.created hrows] at hretired
        cases hretired
      · have hx : x ∈ batteriesOf db serial := by rw [hrows]; exact List.mem_cons_self
        exact absurd ((hfetched.found x hx).2.trans hretired) (h.unretired x hx)
    · intro type hmem
      rw [htype] at hmem
      cases hmem
      rw [hid]
      exact h.open_place.congr hchecks.toSamePlaces
    · rw [htype]
      rintro ⟨⟩
    · have hunlocked : Unlocked args serial db := by
        refine ⟨fun _ => ?_, fun _ => ?_⟩
        · rw [hargs.excludeTransfer]
          exact h.transfers
        · rw [hargs.excludeOrder]
          exact h.orders
      rw [hserial]
      exact hunlocked.congr hchecks
    · rw [hserial, hshelf]
      exact h.shelved
    · rw [htype]
      rintro ⟨⟩

/-! ## The battery of an update -/

/-- What an update does with the tables of the fleet; its item refers to a battery from then on, or
to the one that it referred to `before`. -/
inductive Taken (warehouseId : ℕ) (u : ItemUpdate) (before : Option ℕ) (db db' : Db) :
    Option ℕ → Prop
  | brought {status id} (hs : arrival u.status = some status)
      (h : Brought warehouseId status u.batteryId db db' id) : Taken warehouseId u before db db' id
  | noted (hs : arrival u.status = none) (hbatteries : db'.batteries = db.batteries)
      (hshelf : db'.shelfBatteries = db.shelfBatteries) (hrest : elsewhere db' = elsewhere db) :
      Taken warehouseId u before db db' before

variable {before id : Option ℕ}

theorem Taken.unique {warehouseId : ℕ} {u : ItemUpdate} {db db' : Db}
    (h : Taken warehouseId u before db db' id) (hu : UniqueIndexes db) : UniqueIndexes db' := by
  cases h with
  | brought hs h => exact h.unique
  | noted hs hbatteries hshelf hrest =>
    have hrows : db'.orderBatteries = db.orderBatteries :=
      (sameChecks_of_elsewhere hrest).orderBatteries
    refine ⟨?_, ?_, ?_⟩
    · rw [hbatteries]
      exact hu.serials
    · rw [hshelf]
      exact hu.shelfBatteries
    · rw [hrows]
      exact hu.orderBatteries

theorem Taken.rest {warehouseId : ℕ} {u : ItemUpdate} {db db' : Db}
    (h : Taken warehouseId u before db db' id) : elsewhere db' = elsewhere db := by
  cases h with
  | brought hs h => exact h.rest
  | noted hs hbatteries hshelf hrest => exact hrest

variable {r : Receipt} {item : ManifestItem} {u : ItemUpdate}

theorem receiveBattery_ok (hnormal : normal u.batteryId = u.batteryId) {id : Option ℕ}
    (h : receiveBattery r item u s = (.ok id, t)) :
    t.committed = s.committed ∧
      (arrival u.status ≠ none → Arrivable r.warehouseId u.batteryId s.working) ∧
      Taken r.warehouseId u item.batteryTableId s.working t.working id := by
  unfold receiveBattery at h
  rcases hs : arrival u.status with _ | status
  · rw [intake_none hs] at h
    obtain ⟨db, _, hdb, h⟩ := bind_ok.mp h
    obtain ⟨rfl, rfl⟩ := look_ok.mp hdb
    rcases hbattery : item.batteryTableId.bind s.working.batteries.get? with _ | battery
    · rw [hbattery] at h
      obtain ⟨rfl, rfl⟩ := pure_ok.mp h
      exact ⟨rfl, fun hne => absurd rfl hne, .noted hs rfl rfl rfl⟩
    · rw [hbattery] at h
      obtain ⟨_, _, hnote, h⟩ := bind_ok.mp h
      obtain rfl := update_ok.mp hnote
      obtain ⟨rfl, rfl⟩ := pure_ok.mp h
      exact ⟨rfl, fun hne => absurd rfl hne, .noted hs rfl rfl rfl⟩
  · obtain ⟨args, hargs, hto⟩ := intake_some (r := r) hs
    rw [hargs] at h
    obtain ⟨b, s₁, hfetch, h⟩ := bind_ok.mp h
    obtain ⟨b', s₂, htransition, h⟩ := bind_ok.mp h
    obtain ⟨rfl, rfl⟩ := pure_ok.mp h
    obtain ⟨honce, hcommitted, hfetched⟩ := getOrCreateBattery_ok hnormal hfetch
    obtain ⟨-, hcommitted', a, htransitioned⟩ := applyBatteryTransition_ok htransition
    have hable := applyBatteryTransition_accepts_iff.mp ⟨_, _, htransition⟩
    have hne : u.batteryId ≠ "" := by
      have hnamed := hable.named
      rwa [hfetched.serialNumber, hnormal] at hnamed
    exact ⟨hcommitted'.trans hcommitted,
      fun _ => (transitionable_iff hne hto hnormal honce hfetched).mp hable,
      .brought hs (brought_of_transitioned hto hnormal hfetched htransitioned)⟩

theorem receiveBattery_of_arrivable (hnormal : normal u.batteryId = u.batteryId)
    (hne : u.batteryId ≠ "") {s : Session Db} (hu : UniqueIndexes s.working)
    (h : arrival u.status ≠ none → Arrivable r.warehouseId u.batteryId s.working) :
    ∃ id t, receiveBattery r item u s = (.ok id, t) := by
  unfold receiveBattery
  rcases hs : arrival u.status with _ | status
  · rw [intake_none hs]
    dsimp only
    rw [look_bind]
    rcases item.batteryTableId.bind s.working.batteries.get? with _ | battery
    · exact ⟨_, _, rfl⟩
    · exact ⟨_, _, rfl⟩
  · obtain ⟨args, hargs, hto⟩ := intake_some (r := r) hs
    have hable := h (by simp [hs])
    obtain ⟨b, s₁, hfetch⟩ : ∃ b t,
        getOrCreateBattery r.now u.batteryId r.warehouseId r.actorId s = (.ok b, t) :=
      getOrCreateBattery_of_once hnormal hne hu hable.once
    obtain ⟨-, -, hfetched⟩ := getOrCreateBattery_ok hnormal hfetch
    have hmovable : Transitionable r.now args b s₁.working :=
      (transitionable_iff hne hto hnormal hable.once hfetched).mpr hable
    obtain ⟨b', s₂, htransition⟩ := applyBatteryTransition_accepts_iff.mpr hmovable
    rw [hargs]
    exact ⟨_, _, (bind_of_ok hfetch).trans ((bind_of_ok htransition).trans rfl)⟩

end

end WezuBackend.Manifests.Intake
