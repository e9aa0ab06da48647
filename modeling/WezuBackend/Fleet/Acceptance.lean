import WezuBackend.Fleet.Serials

/-!
# Which transitions are accepted

`Transitionable` lists what a transition asks of the battery, of the place and of the rows of the
battery's serial.  `applyBatteryTransition_accepts_iff` says that a transition returns exactly if it
finds all of that.
-/

namespace WezuBackend.Fleet.Acceptance

open Lib.Tables Lib.Results Lib.Atomicity Lib.Atomicity.Tx Core.Letters
open Fleet.Model Fleet.Consistency Fleet.Transitions Fleet.Serials

/-- The place exists and a battery may be moved there. -/
structure PlaceOpen (db : Db) (type : LocationType) (locationId : Option ℕ) : Prop where
  valid : type ∈ validLocationTypes
  some_id : type ∈ locationTypesRequiringId → ∃ k, locationId = some k ∧ 0 < k
  no_id : type ∈ locationTypesWithoutId → locationId = none
  warehouse : type = .warehouse → ∀ k, locationId = some k →
    (getTransferEligibleWarehouse db k).isSome
  station : type = .station → ∀ k, locationId = some k →
    ∃ station, db.stations.get? k = some station ∧ ¬ station.isDeleted
  shelf : type = .shelf → ∀ k, locationId = some k →
    ∃ shelf, db.shelves.get? k = some shelf ∧ inActiveWarehouse db shelf = true

/-- What the places of a store are read from. -/
structure SamePlaces (db db' : Db) : Prop where
  warehouses : db'.warehouses = db.warehouses
  racks : db'.racks = db.racks
  stations : db'.stations = db.stations
  shelves : db'.shelves = db.shelves

variable {db db' : Db} {k : Option ℕ} {type : LocationType}

theorem PlaceOpen.congr
    (h : PlaceOpen db type k) (hsame : SamePlaces db db') : PlaceOpen db' type k where
  valid := h.valid
  some_id := h.some_id
  no_id := h.no_id
  warehouse htype n hn := by
    unfold getTransferEligibleWarehouse
    rw [hsame.warehouses]
    exact h.warehouse htype n hn
  station htype n hn := by
    rw [hsame.stations]
    exact h.station htype n hn
  shelf htype n hn := by
    obtain ⟨shelf, hs, hactive⟩ := h.shelf htype n hn
    refine ⟨shelf, by rw [hsame.shelves, hs], ?_⟩
    unfold inActiveWarehouse at hactive ⊢
    rw [hsame.racks, hsame.warehouses]
    exact hactive

theorem mem_requiring : type ∈ locationTypesRequiringId ↔
    type = .warehouse ∨ type = .station ∨ type = .shelf := by
  simp [locationTypesRequiringId]

theorem not_mem_without (h : type ∈ locationTypesRequiringId) :
    type ∉ locationTypesWithoutId := by
  rcases mem_requiring.mp h with rfl | rfl | rfl <;> decide

variable {s : Session Db}

theorem assertLocationExists_iff {role : String} (hu : UniqueIndexes s.working) :
    assertLocationExists (some type) k role false s = (.ok (), s) ↔ PlaceOpen s.working type k := by
  constructor
  · intro h
    simp only [assertLocationExists, bind_ok, ensure_ok] at h
    obtain ⟨_, _, ⟨hvalid, rfl⟩, h⟩ := h
    by_cases hreq : type ∈ locationTypesRequiringId
    · have hwithout := not_mem_without hreq
      simp only [if_pos hreq, bind_ok, demand_ok, query_ok] at h
      obtain ⟨n, _, ⟨hn, rfl⟩, _, _, ⟨-, rfl, rfl⟩, h⟩ := h
      obtain ⟨rfl, hpos⟩ := Option.filter_eq_some_iff.mp hn
      refine ⟨hvalid, fun _ => ⟨n, rfl, by simpa using hpos⟩, fun hx => absurd hx hwithout,
        ?_, ?_, ?_⟩
      · rintro rfl _ ⟨⟩
        exact (ensure_ok.mp h).1
      · rintro rfl _ ⟨⟩
        simp only [reduceCtorEq, if_false, if_true, bind_ok, demand_ok, ensure_ok] at h
        obtain ⟨station, _, ⟨hs, rfl⟩, _, _, ⟨hd, rfl⟩, -⟩ := h
        exact ⟨station, hs, hd⟩
      · rintro rfl _ ⟨⟩
        simp only [reduceCtorEq, if_false, bind_ok, demand_ok, ensure_ok] at h
        obtain ⟨shelf, _, ⟨hs, rfl⟩, hactive, -⟩ := h
        exact ⟨shelf, hs, hactive⟩
    · simp only [if_neg hreq, ensure_ok] at h
      refine ⟨hvalid, fun hx => absurd hx hreq, h.1, ?_, ?_, ?_⟩ <;> rintro rfl <;>
        exact absurd (by decide) hreq
  · intro h
    rw [assertLocationExists, ensure_bind h.valid]
    have hquery : query s = (.ok s.working, s) := query_ok.mpr ⟨hu, rfl, rfl⟩
    by_cases hreq : type ∈ locationTypesRequiringId
    · obtain ⟨n, rfl, hpos⟩ := h.some_id hreq
      have hn : (some n).filter (0 < ·) = some n := by simp [hpos]
      rw [if_pos hreq, demand_bind hn, bind_of_ok hquery]
      by_cases hwarehouse : type = .warehouse
      · rw [if_pos hwarehouse]
        exact ensure_ok.mpr ⟨h.warehouse hwarehouse n rfl, rfl⟩
      · rw [if_neg hwarehouse]
        by_cases hstation : type = .station
        · obtain ⟨station, hs, hd⟩ := h.station hstation n rfl
          rw [if_pos hstation, demand_bind hs, ensure_bind hd]
          exact ensure_ok.mpr ⟨by simp, rfl⟩
        · have hshelf : type = .shelf :=
            ((mem_requiring.mp hreq).resolve_left hwarehouse).resolve_left hstation
          obtain ⟨shelf, hs, hactive⟩ := h.shelf hshelf n rfl
          rw [if_neg hstation, demand_bind hs]
          exact ensure_ok.mpr ⟨hactive, rfl⟩
    · rw [if_neg hreq]
      exact ensure_ok.mpr ⟨h.no_id, rfl⟩

section

variable [Casing]

/-! ## The locks -/

theorem normalizeBatterySerials_single {serial field : String} (hnormal : normal serial = serial)
    (hne : serial ≠ "") : normalizeBatterySerials [serial] field false = .ok [serial] := by
  have hfrom : normalizeFrom field 0 [] [serial] = .ok [serial] :=
    normalizeFrom_cons.mpr ⟨by rwa [hnormal], List.not_mem_nil, [], rfl, by rw [hnormal]⟩
  rw [normalizeBatterySerials, hfrom]
  rfl

omit [Casing] in
theorem insertionSort_eq_nil {α : Type} {r : α → α → Prop} [DecidableRel r] {l : List α} :
    l.insertionSort r = [] ↔ l = [] := by
  rw [← List.length_eq_zero_iff, List.length_insertionSort, List.length_eq_zero_iff]

variable {serial : String}

omit [Casing] in
/-- Both checks refuse a conflict: they sort the rows, and read them for the message. -/
theorem ensureNoConflicts_iff {β : Type} {r : β → β → Prop} [DecidableRel r] {conflicts : List β}
    {f : β → Except Core.Base.Exc (String × String)} {e : List (String × String) → Core.Base.Exc} :
    (lift ((conflicts.insertionSort r).mapM f) >>= fun found => ensure (found = []) (e found) :
      FleetTx Unit) s = (.ok (), s) ↔ conflicts = [] := by
  constructor
  · intro h
    simp only [bind_ok, lift_ok, ensure_ok] at h
    obtain ⟨found, _, ⟨hfound, rfl⟩, rfl, -⟩ := h
    exact insertionSort_eq_nil.mp (mapM_nil hfound)
  · intro h
    rw [h]
    rfl

theorem assertTransfers_iff {exclude : Option ℕ}
    (hu : UniqueIndexes s.working) (hnormal : normal serial = serial) (hne : serial ≠ "") :
    assertBatteriesNotInActiveTransfers [serial] exclude s = (.ok (), s) ↔
      transferConflicts s.working [serial] exclude = [] := by
  have hquery : query s = (.ok s.working, s) := query_ok.mpr ⟨hu, rfl, rfl⟩
  rw [assertBatteriesNotInActiveTransfers,
    lift_bind (normalizeBatterySerials_single hnormal hne), if_neg (List.cons_ne_nil _ _),
    bind_of_ok hquery]
  exact ensureNoConflicts_iff

theorem assertOrders_iff {exclude : Option String}
    (hu : UniqueIndexes s.working) (hnormal : normal serial = serial) (hne : serial ≠ "") :
    assertBatteriesNotInActiveOrders [serial] exclude s = (.ok (), s) ↔
      orderConflicts s.working [serial] exclude = [] := by
  have hquery : query s = (.ok s.working, s) := query_ok.mpr ⟨hu, rfl, rfl⟩
  rw [assertBatteriesNotInActiveOrders,
    lift_bind (normalizeBatterySerials_single hnormal hne), if_neg (List.cons_ne_nil _ _),
    bind_of_ok hquery]
  exact ensureNoConflicts_iff

omit [Casing] in
theorem unlessSkipped_iff {skip : Bool} {check : FleetTx Unit} :
    unlessSkipped skip check s = (.ok (), s) ↔ skip = false → check s = (.ok (), s) := by
  unfold unlessSkipped
  cases skip
  · simp
  · simp

/-- No transfer and no order that is under way has the serial. -/
structure Unlocked (args : Transition) (serial : String) (db : Db) : Prop where
  transfers : args.skipActiveTransferCheck = false →
    transferConflicts db [serial] args.excludeTransferId = []
  orders : args.skipActiveOrderCheck = false →
    orderConflicts db [serial] args.excludeOrderId = []

theorem assertBatteryNotLocked_iff {args : Transition}
    (hu : UniqueIndexes s.working) (hnormal : normal serial = serial) (hne : serial ≠ "") :
    assertBatteryNotLocked serial args.excludeTransferId args.excludeOrderId
        args.skipActiveTransferCheck args.skipActiveOrderCheck s = (.ok (), s) ↔
      Unlocked args serial s.working := by
  have hserial : normalizeBatterySerial serial = .ok serial :=
    normalizeBatterySerial_ok.mpr ⟨by rwa [hnormal], hnormal⟩
  have htransfers := @assertTransfers_iff s _ serial args.excludeTransferId hu hnormal hne
  have horders := @assertOrders_iff s _ serial args.excludeOrderId hu hnormal hne
  rw [assertBatteryNotLocked, lift_bind hserial]
  constructor
  · intro h
    obtain ⟨_, t, ht, h⟩ := bind_ok.mp h
    obtain rfl := (readOnly_unlessSkipped _ (readOnly_assertTransfers _ _)).eq ht
    exact ⟨fun hskip => htransfers.mp (unlessSkipped_iff.mp ht hskip),
      fun hskip => horders.mp (unlessSkipped_iff.mp h hskip)⟩
  · intro h
    rw [bind_of_ok (unlessSkipped_iff.mpr fun hskip => htransfers.mpr (h.transfers hskip))]
    exact unlessSkipped_iff.mpr fun hskip => horders.mpr (h.orders hskip)

/-! ## The shelf -/

/-- The battery is on the shelf, or the shelf has room. -/
def ShelfOpen (db : Db) (serial : String) (shelfId : ℕ) : Prop :=
  (∃ r ∈ db.shelfBatteries, sqlUpper r.batteryId = serial ∧ r.shelfId = shelfId) ∨
    ∀ shelf, db.shelves.get? shelfId = some shelf →
      (db.shelfBatteries.rows.filter fun r => r.shelfId = shelfId).length < shelf.capacity

variable {a : Option ShelfBattery}

theorem shelfOpen_of_assigned {db : Db} {k : ℕ}
    (ha : ∀ r, (r ∈ db.shelfBatteries ∧ sqlUpper r.batteryId = serial) ↔ a = some r) :
    ShelfOpen db serial k ↔ a.map ShelfBattery.shelfId = some k ∨
      ∀ shelf, db.shelves.get? k = some shelf →
        (db.shelfBatteries.rows.filter fun r => r.shelfId = k).length < shelf.capacity := by
  refine or_congr_left ?_
  constructor
  · rintro ⟨r, hr, hserial, hk⟩
    rw [(ha r).mp ⟨hr, hserial⟩, Option.map_some, hk]
  · intro hk
    obtain ⟨r, hr, hid⟩ := Option.map_eq_some_iff.mp hk
    obtain ⟨hmem, hserial⟩ := (ha r).mpr hr
    exact ⟨r, hmem, hserial, hid⟩

theorem getShelfAssignment_once {s t : Session Db}
    (h : getShelfAssignment serial s = (.ok a, t)) : (shelfRows s.working serial).length ≤ 1 := by
  simp only [getShelfAssignment, bind_ok, query_ok, ensure_ok] at h
  obtain ⟨_, _, ⟨-, rfl, rfl⟩, _, _, ⟨hlen, -⟩, -⟩ := h
  exact hlen

theorem getShelfAssignment_of_once
    (hu : UniqueIndexes s.working) (honce : (shelfRows s.working serial).length ≤ 1) :
    getShelfAssignment serial s = (.ok (shelfRows s.working serial).head?, s) := by
  have hquery : query s = (.ok s.working, s) := query_ok.mpr ⟨hu, rfl, rfl⟩
  rw [getShelfAssignment, bind_of_ok hquery, ensure_bind honce]
  rfl

structure Transitionable (now : ℕ) (args : Transition) (battery : Battery) (db : Db) : Prop where
  named : normal battery.serialNumber ≠ ""
  unique : UniqueIndexes { db with
    batteries := db.batteries.set (renamed now (normal battery.serialNumber) battery) }
  valid : targetStatus args battery ∈ validBatteryStatuses
  unretired : battery.status = .retired → targetStatus args battery = .retired
  placed : ∀ type ∈ targetLocationType args battery,
    PlaceOpen db type (targetLocationId args battery)
  compatible : targetLocationType args battery = some .transit →
    targetStatus args battery ∈ transitCompatibleStatuses
  unlocked : Unlocked args (normal battery.serialNumber) db
  once : (shelfRows db (normal battery.serialNumber)).length ≤ 1
  room : targetLocationType args battery = some .shelf → ∀ k,
    targetLocationId args battery = some k → ShelfOpen db (normal battery.serialNumber) k

variable {now : ℕ} {args : Transition} {battery : Battery}

/-- All that a transition reads but the batteries and the shelf rows. -/
structure SameChecks (db db' : Db) : Prop extends SamePlaces db db' where
  inventoryTransfers : db'.inventoryTransfers = db.inventoryTransfers
  inventoryTransferItems : db'.inventoryTransferItems = db.inventoryTransferItems
  orders : db'.orders = db.orders
  orderBatteries : db'.orderBatteries = db.orderBatteries

omit [Casing] in
theorem SameChecks.symm (h : SameChecks db db') : SameChecks db' db :=
  ⟨⟨h.warehouses.symm, h.racks.symm, h.stations.symm, h.shelves.symm⟩,
    h.inventoryTransfers.symm, h.inventoryTransferItems.symm, h.orders.symm, h.orderBatteries.symm⟩

theorem Unlocked.congr (h : Unlocked args serial db)
    (hsame : SameChecks db db') : Unlocked args serial db' where
  transfers hskip := by
    unfold transferConflicts
    rw [hsame.inventoryTransferItems, hsame.inventoryTransfers]
    exact h.transfers hskip
  orders hskip := by
    unfold orderConflicts
    rw [hsame.orderBatteries, hsame.orders]
    exact h.orders hskip

theorem Transitionable.congr (h : Transitionable now args battery db)
    (hsame : SameChecks db db') (hbatteries : db'.batteries = db.batteries)
    (hrows : db'.shelfBatteries = db.shelfBatteries) : Transitionable now args battery db' where
  named := h.named
  unique := by
    refine ⟨?_, ?_, ?_⟩
    · dsimp only
      rw [hbatteries]
      exact h.unique.serials
    · dsimp only
      rw [hrows]
      exact h.unique.shelfBatteries
    · dsimp only
      rw [hsame.orderBatteries]
      exact h.unique.orderBatteries
  valid := h.valid
  unretired := h.unretired
  placed type htype := (h.placed type htype).congr hsame.toSamePlaces
  compatible := h.compatible
  unlocked := h.unlocked.congr hsame
  once := by
    unfold shelfRows
    rw [hrows]
    exact h.once
  room htype k hk := by
    unfold ShelfOpen
    rw [hrows, hsame.shelves]
    exact h.room htype k hk

theorem moveAssignment_accepts_iff {type : Option LocationType} (hu : UniqueIndexes s.working)
    (hplace : type = some .shelf → ∃ n shelf, k = some n ∧ s.working.shelves.get? n = some shelf)
    (ha : ∀ r, (r ∈ s.working.shelfBatteries ∧ sqlUpper r.batteryId = serial) ↔ a = some r) :
    (∃ t, moveAssignment serial a type k s = (.ok (), t)) ↔
      (type = some .shelf → ∀ n, k = some n → ShelfOpen s.working serial n) := by
  have hquery : query s = (.ok s.working, s) := query_ok.mpr ⟨hu, rfl, rfl⟩
  unfold moveAssignment
  by_cases htype : type = some .shelf
  · obtain ⟨n, shelf, rfl, hshelf⟩ := hplace htype
    rw [if_pos htype, demand_bind rfl, bind_of_ok hquery, demand_bind hshelf]
    have hopen := @shelfOpen_of_assigned _ serial a s.working n ha
    by_cases hkept : a.map ShelfBattery.shelfId = some n
    · rw [if_pos hkept]
      refine iff_of_true ⟨s, rfl⟩ ?_
      rintro - _ ⟨⟩
      exact hopen.mpr (.inl hkept)
    · rw [if_neg hkept]
      constructor
      · rintro ⟨t, h⟩ - _ ⟨⟩
        obtain ⟨_, _, hroom, -⟩ := bind_ok.mp h
        refine hopen.mpr (.inr fun x hx => ?_)
        obtain rfl := Option.some.inj (hshelf.symm.trans hx)
        exact (ensure_ok.mp hroom).1
      · intro h
        have hroom := (hopen.mp (h htype n rfl)).resolve_left hkept shelf hshelf
        rw [ensure_bind hroom, bind_of_ok (deleteAssignment_eq hu a)]
        exact ⟨_, rfl⟩
  · rw [if_neg htype, deleteAssignment_eq hu]
    exact iff_of_true ⟨_, rfl⟩ fun h => absurd h htype

theorem applyBatteryTransition_accepts_iff :
    (∃ b t, applyBatteryTransition now battery args s = (.ok b, t)) ↔
      Transitionable now args battery s.working := by
  have hsame : ∀ batteries, SamePlaces s.working { s.working with batteries } := fun _ =>
    ⟨rfl, rfl, rfl, rfl⟩
  have hback : ∀ batteries, SamePlaces { s.working with batteries } s.working := fun _ =>
    ⟨rfl, rfl, rfl, rfl⟩
  have hshelf : targetLocationType args battery = some .shelf →
      (∀ type ∈ targetLocationType args battery,
        PlaceOpen s.working type (targetLocationId args battery)) →
      ∃ n shelf, targetLocationId args battery = some n ∧
        s.working.shelves.get? n = some shelf := by
    intro htype hplaced
    have hopen := hplaced .shelf htype
    obtain ⟨n, hn, -⟩ := hopen.some_id (by decide)
    obtain ⟨shelf, hs, -⟩ := hopen.shelf rfl n hn
    exact ⟨n, shelf, hn, hs⟩
  constructor
  · rintro ⟨b, t, h⟩
    simp only [applyBatteryTransition, bind_ok, lift_ok, saveBattery_ok, ensure_ok] at h
    obtain ⟨serial, _, ⟨hserial, rfl⟩, _, _, rfl, _, _, ⟨hvalid, rfl⟩, _, _, ⟨hret, rfl⟩, h⟩ := h
    obtain ⟨hname, rfl⟩ := normalizeBatterySerial_ok.mp hserial
    obtain ⟨_, _, hloc, _, _, ⟨hcompat, rfl⟩, _, _, hlock, a, _, ha, _, _, hmove, -⟩ := h
    obtain rfl := (readOnly_assertLocationExists _ _ _ _).eq hloc
    obtain rfl := (readOnly_assertBatteryNotLocked _ _ _ _ _).eq hlock
    have honce := getShelfAssignment_once ha
    obtain ⟨rfl, hu, hassign⟩ := getShelfAssignment_ok ha
    have hunlocked := (assertBatteryNotLocked_iff hu (normal_normal _) hname).mp hlock
    have hplaced : ∀ type ∈ targetLocationType args battery,
        PlaceOpen s.working type (targetLocationId args battery) := by
      intro type htype
      have hloc' : targetLocationType args battery = some type := htype
      rw [targetLocationType] at hloc'
      have hopen := (assertLocationExists_iff hu).mp (hloc' ▸ hloc)
      exact hopen.congr (hback _)
    refine ⟨hname, hu, hvalid, hret, hplaced, hcompat, ⟨hunlocked.transfers, hunlocked.orders⟩,
      honce, ?_⟩
    intro htype k hk
    exact (moveAssignment_accepts_iff hu (fun _ => hshelf htype hplaced) hassign).mp ⟨_, hmove⟩
      htype k hk
  · intro h
    obtain ⟨s₁, hs₁⟩ : ∃ s₁ : Session Db, s₁ = ⟨s.committed, { s.working with
        batteries := s.working.batteries.set
          (renamed now (normal battery.serialNumber) battery) }⟩ := ⟨_, rfl⟩
    have hu : UniqueIndexes s₁.working := hs₁ ▸ h.unique
    have hsave : saveBattery (renamed now (normal battery.serialNumber) battery) s = (.ok (), s₁) :=
      saveBattery_ok.mpr hs₁.symm
    have hsame₁ : SamePlaces s.working s₁.working := hs₁ ▸ hsame _
    have hshelves : s₁.working.shelves = s.working.shelves := hsame₁.shelves
    have hrows : s₁.working.shelfBatteries = s.working.shelfBatteries := by rw [hs₁]
    have hloc : assertLocationExists (targetLocationType args battery)
        (targetLocationId args battery) "target" false s₁ = (.ok (), s₁) := by
      rcases htype : targetLocationType args battery with _ | type
      · rfl
      · exact (assertLocationExists_iff hu).mpr ((h.placed type htype).congr hsame₁)
    have hunlocked : Unlocked args (normal battery.serialNumber) s₁.working := by
      rw [hs₁]
      exact ⟨h.unlocked.transfers, h.unlocked.orders⟩
    have hlock := (assertBatteryNotLocked_iff hu (normal_normal _) h.named).mpr hunlocked
    have honce : (shelfRows s₁.working (normal battery.serialNumber)).length ≤ 1 := by
      rw [hs₁]
      exact h.once
    have hassignment := getShelfAssignment_of_once hu honce
    obtain ⟨-, -, ha⟩ := getShelfAssignment_ok hassignment
    have hmoves : ∃ t, moveAssignment (normal battery.serialNumber)
        (shelfRows s₁.working (normal battery.serialNumber)).head?
        (targetLocationType args battery) (targetLocationId args battery) s₁ = (.ok (), t) := by
      refine (moveAssignment_accepts_iff hu (fun htype => ?_) ha).mpr fun htype n hn => ?_
      · rw [hshelves]
        exact hshelf htype h.placed
      · unfold ShelfOpen
        rw [hrows, hshelves]
        exact h.room htype n hn
    obtain ⟨t, hmove⟩ := hmoves
    exact ⟨outcome now args battery, _,
      (lift_bind (normalizeBatterySerial_ok.mpr ⟨h.named, rfl⟩) _ _).trans <|
      (bind_of_ok hsave).trans <| (ensure_bind h.valid _ _ _).trans <|
      (ensure_bind h.unretired _ _ _).trans <| (bind_of_ok hloc).trans <|
      (ensure_bind h.compatible _ _ _).trans <| (bind_of_ok hlock).trans <|
      (bind_of_ok hassignment).trans <| (bind_of_ok hmove).trans rfl⟩

/-! ## The indexes -/

/-- A transition that returns leaves rows that the unique indexes allow. -/
theorem uniqueIndexes_of_transitioned (h : Transitioned now args battery a db db')
    (hu : UniqueIndexes { db with
      batteries := db.batteries.set (renamed now (normal battery.serialNumber) battery) }) :
    UniqueIndexes db' := by
  have hset : db'.batteries = (db.batteries.set
      (renamed now (normal battery.serialNumber) battery)).set (outcome now args battery) := by
    rw [h.batteries, Table.set_set (outcome_id now args battery).symm]
  refine ⟨fun b hb b' hb' hserial => ?_, fun r hr r' hr' hid => ?_, ?_⟩
  · -- the serials and the ids are those that the name was written with
    have hback : ∀ x ∈ db'.batteries, ∃ y ∈ db.batteries.set
        (renamed now (normal battery.serialNumber) battery), y.id = x.id ∧
          y.serialNumber = x.serialNumber := by
      intro x hx
      rw [hset] at hx
      rcases Table.mem_set.mp hx with ⟨hx, -⟩ | ⟨rfl, y, hy, hyid⟩
      · exact ⟨x, hx, rfl, rfl⟩
      · refine ⟨renamed now (normal battery.serialNumber) battery, ?_, ?_, ?_⟩
        · rcases Table.mem_set.mp hy with ⟨-, hne⟩ | ⟨rfl, hold⟩
          · exact absurd (hyid.trans (outcome_id now args battery)) hne
          · exact Table.mem_set.mpr (.inr ⟨rfl, hold⟩)
        · exact (outcome_id now args battery).symm
        · rw [outcome_serialNumber]
          rfl
    obtain ⟨y, hy, hyid, hyserial⟩ := hback b hb
    obtain ⟨y', hy', hyid', hyserial'⟩ := hback b' hb'
    rw [← hyid, ← hyid']
    exact hu.serials y hy y' hy' (by rw [hyserial, hyserial', hserial])
  · have hdropped : ∀ x ∈ dropped db.shelfBatteries a, x ∈ db.shelfBatteries ∧
        sqlUpper x.batteryId ≠ normal battery.serialNumber := by
      intro x hx
      obtain ⟨hmem, hne⟩ := (mem_dropped fun y hy => ((h.assigned y).mpr hy).1).mp hx
      exact ⟨hmem, fun hs => hne ((h.assigned x).mp ⟨hmem, hs⟩)⟩
    have hreshelved := h.reshelved
    generalize db'.shelfBatteries = rows at hr hr' hreshelved
    generalize targetLocationType args battery = type at hreshelved
    generalize targetLocationId args battery = k at hreshelved
    cases hreshelved with
    | kept => exact hu.shelfBatteries r hr r' hr' hid
    | shelved hs hne hroom =>
      rcases (Table.mem_add_mk fun _ => rfl).mp hr with hr | rfl <;>
        rcases (Table.mem_add_mk fun _ => rfl).mp hr' with hr' | rfl
      · exact hu.shelfBatteries r (hdropped r hr).1 r' (hdropped r' hr').1 hid
      · refine absurd ?_ (hdropped r hr).2
        rw [hid, sqlUpper_normal]
      · refine absurd ?_ (hdropped r' hr').2
        rw [← hid, sqlUpper_normal]
      · rfl
    | cleared => exact hu.shelfBatteries r (hdropped r hr).1 r' (hdropped r' hr').1 hid
  · have hrows : db'.orderBatteries = db.orderBatteries := by rw [h.rest]
    rw [hrows]
    exact hu.orderBatteries

end

end WezuBackend.Fleet.Acceptance
