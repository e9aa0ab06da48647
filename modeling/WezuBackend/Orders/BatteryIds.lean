import WezuBackend.Orders.BatteryReads

/-!
# The battery list of an order

`_get_order_battery_ids` merges two representations of one list: the rows of the order, in the order
of their ids, and the old JSON column.  What only the column has is inserted behind a savepoint,
where another request may have been faster.  The result is the same list either way, and once the
rows are there, they are all of it (`order_battery_ids`).
-/

namespace WezuBackend.Orders.BatteryIds

open Lib.Tables Lib.Atomicity Lib.Atomicity.Tx Core.Letters Fleet.Model Fleet.Consistency
open Fleet.Transitions Fleet.Serials Orders.Normalise Orders.Service Orders.Batteries
open Orders.BatteryReads

/-! ## The order of the ids -/

/-- The rows in the order of their ids. -/
def byId (t : Table OrderBattery) : Table OrderBattery where
  rows := t.rows.insertionSort fun r r' => r.id ≤ r'.id
  nodup := (((List.perm_insertionSort _ t.rows).map Row.key).nodup_iff).mpr t.nodup

theorem mem_byId {t : Table OrderBattery} {r : OrderBattery} : r ∈ byId t ↔ r ∈ t :=
  List.mem_insertionSort _

/-- The same database, of which `ORDER BY id` lists the rows in the order of their ids. -/
def listed (s : Session Db) : Session Db :=
  { s with working := { s.working with orderBatteries := byId s.working.orderBatteries } }

theorem uniqueIndexes_listed {s : Session Db} :
    UniqueIndexes (listed s).working ↔ UniqueIndexes s.working := by
  have hmem : ∀ r, r ∈ (listed s).working.orderBatteries ↔ r ∈ s.working.orderBatteries :=
    fun r => mem_byId
  constructor
  · intro h
    exact ⟨h.serials, h.shelfBatteries, fun r hr r' hr' =>
      h.orderBatteries r ((hmem r).mpr hr) r' ((hmem r').mpr hr')⟩
  · intro h
    exact ⟨h.serials, h.shelfBatteries, fun r hr r' hr' =>
      h.orderBatteries r ((hmem r).mp hr) r' ((hmem r').mp hr')⟩

section

variable [Casing]

/-! ## The program -/

/-- `_persist_missing_order_batteries`, where another request may have inserted the same rows. -/
def persistMissingUnder (overtaken : Bool) (orderId : String) (batteryIds : List String) :
    FleetTx Unit := do
  if batteryIds = [] then return
  flush
  savepoint (do
    persistOrderBatteries orderId batteryIds
    ensure (overtaken = false) .integrityError
    flush) (· = .integrityError)

/-- `_get_order_battery_ids`, with the insertion of what is missing. -/
def mergedBatteryIds (persistMissing : List String → FleetTx Unit) (order : Order) :
    FleetTx (List String) := do
  let db ← query
  let indexed ← lift (normalizeBatterySerials (rowSerials db order.id) "assigned_battery_ids" false)
  let legacy ← lift (parseAssignedBatteryIdsJson order)
  let missing := legacy.filter fun serial => serial ∉ indexed
  ensure (indexed = [] → legacy = [] →
      canonicalOrderStatus order.status ∉ ["in_transit", "delivered"]) <|
    .http 409 s!"Order '{order.id}' has no indexed battery assignments"
  persistMissing missing
  return indexed ++ missing

/-- `_get_order_battery_ids`, where another request may insert the rows that are missing. -/
def getOrderBatteryIdsUnder (overtaken : Bool) (order : Order) : FleetTx (List String) :=
  mergedBatteryIds (persistMissingUnder overtaken order.id) order

/-- Without another request it is the program of the order endpoints. -/
theorem getOrderBatteryIdsUnder_false (order : Order) :
    getOrderBatteryIdsUnder false order = getOrderBatteryIds order := rfl

def indexedSerials (db : Db) (orderId : String) : List String :=
  serialsAt (byId db.orderBatteries) orderId

theorem mem_indexedSerials {db : Db} {orderId serial : String} :
    serial ∈ indexedSerials db orderId ↔ serial ∈ serialsAt db.orderBatteries orderId := by
  unfold indexedSerials
  rw [mem_serialsAt, mem_serialsAt]
  exact exists_congr fun r => and_congr_left' mem_byId

theorem perm_indexedSerials (db : Db) (orderId : String) :
    (indexedSerials db orderId).Perm (serialsAt db.orderBatteries orderId) :=
  ((List.perm_insertionSort _ _).filter _).map _

/-! ## What a read returns -/

variable {order : Order} {s : Session Db} {overtaken : Bool}

theorem persistMissingUnder_returns {serials : List String} (hu : UniqueIndexes s.working)
    (hnodup : serials.Nodup) (hnormal : ∀ serial ∈ serials, normal serial = serial)
    (hnew : ∀ serial ∈ serials, serial ∉ serialsAt s.working.orderBatteries order.id) :
    (∃ t, persistMissingUnder overtaken order.id serials s = (.ok (), t)) ↔
      ∃ t, persistMissingOrderBatteries order.id serials s = (.ok (), t) := by
  rcases overtaken with _ | _
  · exact Iff.rfl
  by_cases hnil : serials = []
  · rw [persistMissingUnder, persistMissingOrderBatteries, if_pos hnil, if_pos hnil]
  simp only [persistMissing_iff hu hnodup hnormal hnew]
  rw [persistMissingUnder, if_neg hnil, bind_of_ok (a := ()) (flush_ok.mpr ⟨hu, rfl⟩)]
  rcases hpersist : persistOrderBatteries order.id serials s with ⟨e | _, s₁⟩
  · obtain ⟨code, detail, rfl⟩ := refuses_persistOrderBatteries _ _ _ _ _ hu hpersist
    rw [savepoint_of_error (bind_of_error hpersist)]
    refine iff_of_false ?_ ?_
    · rintro ⟨_, ⟨⟩⟩
    · rintro ⟨_, ⟨⟩⟩
  · -- the rows are taken back
    have hrejected : (do
        persistOrderBatteries order.id serials
        ensure (true = false) .integrityError
        flush : FleetTx Unit) s = (.error .integrityError, s₁) :=
      (bind_of_ok hpersist).trans (ensure_bind_not (by simp) _ _ _)
    rw [savepoint_of_error hrejected]
    exact iff_of_true ⟨_, rfl⟩ ⟨_, rfl⟩

variable {ids : List String}

theorem merged_returns {persist persist' : List String → FleetTx Unit}
    (hpersist : ∀ serials : List String, serials.Nodup → (∀ x ∈ serials, normal x = x) →
      (∀ x ∈ serials, x ∉ serialsAt s.working.orderBatteries order.id) →
        (∃ t, persist serials s = (.ok (), t)) → ∃ t, persist' serials s = (.ok (), t))
    (h : ∃ t, mergedBatteryIds persist order s = (.ok ids, t)) :
    ∃ t, mergedBatteryIds persist' order s = (.ok ids, t) := by
  obtain ⟨t, h⟩ := h
  obtain ⟨db, s₁, hquery, h⟩ := bind_ok.mp h
  obtain ⟨hu, rfl, rfl⟩ := query_ok.mp hquery
  obtain ⟨indexed, s₁, hlift, h⟩ := bind_ok.mp h
  obtain ⟨hindexed, rfl⟩ := lift_ok.mp hlift
  obtain ⟨-, -, hserials⟩ := normalizeBatterySerials_optional.mp hindexed
  obtain ⟨legacy, s₁, hlift', h⟩ := bind_ok.mp h
  obtain ⟨hlegacy, rfl⟩ := lift_ok.mp hlift'
  obtain ⟨_, s₁, hensure, h⟩ := bind_ok.mp h
  obtain ⟨hsome, rfl⟩ := ensure_ok.mp hensure
  obtain ⟨_, s₁, hrun, h⟩ := bind_ok.mp h
  obtain ⟨rfl, rfl⟩ := pure_ok.mp h
  have hnormal : ∀ x ∈ legacy, normal x = x := by
    obtain ⟨rfl, -⟩ := parseAssigned_ok hlegacy
    exact fun x hx => normal_of_listed hx
  obtain ⟨t, ht⟩ := hpersist _ ((parseAssigned_ok hlegacy).2.filter _)
    (fun x hx => hnormal x (List.mem_filter.mp hx).1)
    (fun x hx => by
      rw [← map_rowSerials, hserials]
      exact of_decide_eq_true (List.mem_filter.mp hx).2) ⟨_, hrun⟩
  unfold mergedBatteryIds
  rw [bind_of_ok hquery, lift_bind hindexed, lift_bind hlegacy, ensure_bind hsome, bind_of_ok ht]
  exact ⟨t, rfl⟩

/-- A read returns the same list whether or not another request is faster. -/
theorem getOrderBatteryIdsUnder_returns :
    (∃ t, getOrderBatteryIdsUnder overtaken order s = (.ok ids, t)) ↔
      ∃ t, getOrderBatteryIds order s = (.ok ids, t) := by
  rw [← getOrderBatteryIdsUnder_false]
  have hu : ∀ {x : Bool} {t : Session Db},
      getOrderBatteryIdsUnder x order s = (.ok ids, t) → UniqueIndexes s.working := by
    intro x t h
    obtain ⟨db, s₁, hquery, -⟩ := bind_ok.mp h
    exact (query_ok.mp hquery).1
  constructor
  · rintro ⟨t, h⟩
    exact merged_returns (fun serials hnodup hnormal hnew =>
      (persistMissingUnder_returns (hu h) hnodup hnormal hnew).mp) ⟨t, h⟩
  · rintro ⟨t, h⟩
    exact merged_returns (fun serials hnodup hnormal hnew =>
      (persistMissingUnder_returns (hu h) hnodup hnormal hnew).mpr) ⟨t, h⟩

variable {t : Session Db}

theorem batteryIds_of_returns
    (h : getOrderBatteryIdsUnder overtaken order (listed s) = (.ok ids, t)) :
    ids = indexedSerials s.working order.id ++ missingOf (listed s).working order ∧
      UniqueIndexes (listed s).working ∧
      (∀ raw ∈ rowSerials (listed s).working order.id, normal raw ≠ "") ∧
      (indexedSerials s.working order.id).Nodup ∧ Missing (listed s).working order := by
  have hu : UniqueIndexes (listed s).working := by
    obtain ⟨db, s₁, hquery, -⟩ := bind_ok.mp h
    exact (query_ok.mp hquery).1
  obtain ⟨hrows, honce, ⟨_, hcolumn⟩, -, rfl, -⟩ :=
    (getOrderBatteryIds_iff hu).mp (getOrderBatteryIdsUnder_returns.mp ⟨t, h⟩)
  exact ⟨rfl, hu, hrows, honce, missing_of_column _ hcolumn⟩

theorem perm_of_inserted (h : getOrderBatteryIds order (listed s) = (.ok ids, t)) :
    (indexedSerials t.working order.id).Perm ids := by
  have hread := h
  rw [← getOrderBatteryIdsUnder_false] at hread
  obtain ⟨rfl, hu, -, -, hmissing⟩ := batteryIds_of_returns hread
  obtain ⟨-, -, hadded, -⟩ := getOrderBatteryIds_left hu h
  refine (perm_indexedSerials _ _).trans ?_
  rw [hadded.serialsAt_self, map_normal hmissing.normal]
  rfl

/-- **The battery list of an order**: whenever a read returns, with another request inserting the
rows first or not, the list has no serial twice and normalised ones only, it starts with the rows of
the order by their ids, and it has what is in a row or in the column; and if the rows were inserted,
they have all of it, and the next read returns the same serials. -/
theorem order_battery_ids (overtaken : Bool) (order : Order) (s : Session Db) {ids : List String}
    {t : Session Db} (h : getOrderBatteryIdsUnder overtaken order (listed s) = (.ok ids, t)) :
    ids.Nodup ∧ (∀ serial ∈ ids, normal serial = serial ∧ serial ≠ "") ∧
      indexedSerials s.working order.id <+: ids ∧
      (∀ serial, serial ∈ ids ↔ (∃ r ∈ s.working.orderBatteries, r.orderId = order.id ∧
        normal r.batteryId = serial) ∨ serial ∈ listedSerials order) ∧
      (overtaken = false →
        (∀ serial ∈ ids, ∃ r ∈ t.working.orderBatteries, r.orderId = order.id ∧
          normal r.batteryId = serial) ∧
        ∀ overtaken', ∃ ids' t', getOrderBatteryIdsUnder overtaken' order (listed t) =
          (.ok ids', t') ∧ ids'.Perm ids) := by
  obtain ⟨rfl, hu, hrows, honce, hmissing⟩ := batteryIds_of_returns h
  have hnormal := batteryIds_normal hrows hmissing
  have hnodup : (batteryIdsOf (listed s).working order).Nodup := batteryIds_nodup honce hmissing
  refine ⟨hnodup, hnormal, List.prefix_append _ _, fun serial => ?_, ?_⟩
  · rw [← mem_serialsAt, ← mem_indexedSerials, List.mem_append]
    refine or_congr_right' fun hno => ?_
    exact List.mem_filter.trans (and_iff_left (decide_eq_true hno))
  · rintro rfl
    have hperm := perm_of_inserted h
    obtain ⟨-, -, ⟨serials, hcolumn⟩, -, -, hsome⟩ :=
      (getOrderBatteryIds_iff hu).mp ⟨t, h⟩
    obtain ⟨-, -, -, hu'⟩ := getOrderBatteryIds_left hu h
    have hthere : ∀ serial ∈ indexedSerials s.working order.id ++
        missingOf (listed s).working order, ∃ r ∈ t.working.orderBatteries,
          r.orderId = order.id ∧ normal r.batteryId = serial := fun serial hmem =>
      mem_serialsAt.mp (mem_indexedSerials.mp (hperm.mem_iff.mpr hmem))
    have hnone : missingOf (listed t).working order = [] := by
      refine List.filter_eq_nil_iff.mpr fun serial hmem => ?_
      rw [decide_eq_true_eq, not_not]
      refine hperm.mem_iff.mpr (List.mem_append.mpr ?_)
      by_cases hindexed : serial ∈ indexedSerials s.working order.id
      · exact .inl hindexed
      · exact .inr (List.mem_filter.mpr ⟨hmem, decide_eq_true hindexed⟩)
    have hids : batteryIdsOf (listed t).working order = indexedSerials t.working order.id := by
      unfold batteryIdsOf
      rw [hnone, List.append_nil]
      rfl
    have hnames : ∀ raw ∈ rowSerials (listed t).working order.id, normal raw ≠ "" := by
      intro raw hraw
      have hmem : normal raw ∈ indexedSerials t.working order.id := by
        have hmap : (rowSerials (listed t).working order.id).map normal =
            indexedSerials t.working order.id := map_rowSerials _ _
        rw [← hmap]
        exact List.mem_map_of_mem hraw
      exact (hnormal _ (hperm.mem_iff.mp hmem)).2
    have hfound : ∃ found, Found (listed t).working (missingOf (listed t).working order) found := by
      rw [hnone]
      exact ⟨[], found_nil _⟩
    have hagain : ∃ t', getOrderBatteryIds order (listed t) =
        (.ok (indexedSerials t.working order.id), t') := by
      refine (getOrderBatteryIds_iff (uniqueIndexes_listed.mpr hu')).mpr ⟨hnames,
        hperm.nodup_iff.mpr hnodup, ⟨serials, hcolumn⟩, hfound, hids.symm, fun hnil => hsome ?_⟩
      rw [hnil] at hperm
      exact hperm.nil_eq.symm
    refine ⟨hthere, fun overtaken' => ?_⟩
    obtain ⟨t', ht'⟩ := getOrderBatteryIdsUnder_returns.mpr hagain
    exact ⟨_, t', ht', hperm⟩

end

/-! ## An order with both -/

/-- The column of the order has two serials, and there are rows for one of them and for a third. -/
def migrated : Order where
  id := "ORD-1"
  destination := "Pune"
  orderDate := 1
  updatedAt := 1
  assignedBatteryIds := .array [some "b-2", some " B-1 "]

def halfMigrated : Db where
  batteries := ⟨[{ id := 1, serialNumber := "B-1" }, { id := 2, serialNumber := "B-2" },
    { id := 3, serialNumber := "B-3" }], by decide⟩
  orders := ⟨[migrated], by decide⟩
  orderBatteries := ⟨[⟨9, "ORD-1", "B-3", some 3⟩, ⟨4, "ORD-1", "b-1", some 1⟩], by decide⟩

/-- The read after it has the same serials. -/
theorem order_battery_ids_sample : ∃ ids t, getOrderBatteryIdsUnder true migrated
    (listed (getOrderBatteryIdsUnder false migrated (listed (.fresh halfMigrated))).2) =
      (.ok ids, t) ∧ ids.Perm ["B-1", "B-3", "B-2"] := by
  have h : getOrderBatteryIdsUnder false migrated (listed (.fresh halfMigrated)) =
      (.ok ["B-1", "B-3", "B-2"],
        (getOrderBatteryIdsUnder false migrated (listed (.fresh halfMigrated))).2) :=
    Prod.ext (by decide +kernel) rfl
  exact ((order_battery_ids false migrated (.fresh halfMigrated) h).2.2.2.2 rfl).2 true

end WezuBackend.Orders.BatteryIds
