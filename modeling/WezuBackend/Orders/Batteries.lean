import WezuBackend.Fleet.Serials
import WezuBackend.Orders.Lifecycle

/-!
# The batteries of an order

The batteries of an order are named by its rows, and by an old JSON column that older releases wrote
alone.  Reading the batteries of an order writes the rows that only the JSON column has
(`getOrderBatteryIds_ok`); what a reservation checks is that no other active order has a row for any
of them (`assertBatteriesNotInActiveOrders_ok`).
-/

namespace WezuBackend.Orders.Batteries

open Lib.Tables Lib.Atomicity Lib.Atomicity.Tx Core.Base Core.Letters Fleet.Model
open Fleet.Consistency Fleet.Transitions Fleet.Serials Lib.Results Orders.Service
open Orders.Effects

/-! ## Rows of an order -/

theorem texts_of_mapM {values : List (Option String × ℕ)}
    {f : Option String × ℕ → Except Exc String}
    {raws : List String} (hf : ∀ value raw, f value = .ok raw → value.1 = some raw)
    (h : values.mapM f = .ok raws) : values.map Prod.fst = raws.map some := by
  have hpairs := forall₂_of_mapM h
  clear h
  induction hpairs with
  | nil => rfl
  | cons hvalue _ ih => rw [List.map_cons, ih, hf _ _ hvalue, List.map_cons]

/-- The order has got a row for each of the serials, and nothing else has changed. -/
def Added (orderId : String) (serials : List String) (rows rows' : Table OrderBattery) : Prop :=
  ∃ new : List OrderBattery, rows'.rows = rows.rows ++ new ∧ (∀ r ∈ new, r.orderId = orderId) ∧
    new.map OrderBattery.batteryId = serials

theorem added_refl (orderId : String) (rows : Table OrderBattery) : Added orderId [] rows rows :=
  ⟨[], (List.append_nil _).symm, nofun, rfl⟩

variable {orderId : String}

theorem Added.trans {serials serials' : List String}
    {rows rows' rows'' : Table OrderBattery} (h : Added orderId serials rows rows')
    (h' : Added orderId serials' rows' rows'') :
      Added orderId (serials ++ serials') rows rows'' := by
  obtain ⟨new, hrows, horder, hserials⟩ := h
  obtain ⟨new', hrows', horder', hserials'⟩ := h'
  refine ⟨new ++ new', ?_, ?_, ?_⟩
  · rw [hrows', hrows, List.append_assoc]
  · intro r hr
    rcases List.mem_append.mp hr with hr | hr
    · exact horder r hr
    · exact horder' r hr
  · rw [List.map_append, hserials, hserials']

variable {r : OrderBattery} {rows rows' : Table OrderBattery} {serials : List String}

theorem Added.mem (h : Added orderId serials rows rows') (hr : r ∈ rows') :
    r ∈ rows ∨ (r.orderId = orderId ∧ r.batteryId ∈ serials) := by
  obtain ⟨new, hrows, horder, hserials⟩ := h
  rw [Table.mem_def, hrows, List.mem_append] at hr
  rcases hr with hr | hr
  · exact .inl hr
  · exact .inr ⟨horder r hr, hserials ▸ List.mem_map_of_mem hr⟩

theorem Added.old (h : Added orderId serials rows rows') (hr : r ∈ rows) : r ∈ rows' := by
  obtain ⟨new, hrows, -⟩ := h
  rw [Table.mem_def, hrows]
  exact List.mem_append_left _ hr

section

variable [Casing]

def serialsAt (rows : Table OrderBattery) (orderId : String) : List String :=
  (rows.rows.filter fun r => r.orderId = orderId).map fun r => normal r.batteryId

theorem map_rowSerials (db : Db) (orderId : String) :
    (rowSerials db orderId).map normal = serialsAt db.orderBatteries orderId := by
  unfold rowSerials serialsAt
  rw [List.map_map]
  rfl

theorem mem_serialsAt {rows : Table OrderBattery} {orderId serial : String} :
    serial ∈ serialsAt rows orderId ↔
      ∃ r ∈ rows, r.orderId = orderId ∧ normal r.batteryId = serial := by
  simp [serialsAt, Table.mem_def, and_assoc]

theorem Added.serialsAt_self (h : Added orderId serials rows rows') :
    serialsAt rows' orderId = serialsAt rows orderId ++ serials.map normal := by
  obtain ⟨new, hrows, horder, rfl⟩ := h
  have hnew : new.filter (fun r => r.orderId = orderId) = new :=
    List.filter_eq_self.mpr fun r hr => decide_eq_true (horder r hr)
  unfold serialsAt
  rw [hrows, List.filter_append, List.map_append, hnew, List.map_map]
  rfl

theorem Added.serialsAt_other {orderId k : String}
    (h : Added orderId serials rows rows') (hk : k ≠ orderId) :
    serialsAt rows' k = serialsAt rows k := by
  obtain ⟨new, hrows, horder, -⟩ := h
  have hnew : new.filter (fun r => r.orderId = k) = [] := by
    refine List.filter_eq_nil_iff.mpr fun r hr hsame => hk ?_
    rw [← of_decide_eq_true hsame, horder r hr]
  unfold serialsAt
  rw [hrows, List.filter_append, hnew, List.append_nil]

theorem added_addRows (orderId : String) (batteries : List Battery) (serials : List String)
    (db : Db) : Added orderId serials db.orderBatteries
      (addRows orderId batteries serials db).orderBatteries := by
  induction serials generalizing db with
  | nil => exact added_refl orderId db.orderBatteries
  | cons serial serials ih =>
    have hfirst : Added orderId [serial] db.orderBatteries
        (addRows orderId batteries [serial] db).orderBatteries := by
      refine ⟨[_], rfl, fun r hr => ?_, rfl⟩
      rw [List.mem_singleton.mp hr]
    exact hfirst.trans (ih (addRows orderId batteries [serial] db))

theorem Added.unique (h : Added orderId serials rows rows') (hnodup : serials.Nodup)
    (hnormal : ∀ serial ∈ serials, normal serial = serial)
    (hnew : ∀ serial ∈ serials, serial ∉ serialsAt rows orderId)
    (hu : ∀ r ∈ rows, ∀ r' ∈ rows,
      r.orderId = r'.orderId → r.batteryId = r'.batteryId → r.id = r'.id) :
    ∀ r ∈ rows', ∀ r' ∈ rows',
      r.orderId = r'.orderId → r.batteryId = r'.batteryId → r.id = r'.id := by
  obtain ⟨new, hrows, horder, rfl⟩ := h
  have hfresh : ∀ r ∈ rows, ∀ r' ∈ new, r.orderId = r'.orderId → r.batteryId ≠ r'.batteryId := by
    intro r hr r' hr' hsame hserial
    have hmem : r'.batteryId ∈ new.map OrderBattery.batteryId := List.mem_map_of_mem hr'
    refine hnew _ hmem (mem_serialsAt.mpr ⟨r, hr, hsame.trans (horder r' hr'), ?_⟩)
    rw [hserial]
    exact hnormal _ hmem
  intro r hr r' hr' hsame hserial
  rw [Table.mem_def, hrows, List.mem_append] at hr hr'
  rcases hr with hr | hr <;> rcases hr' with hr' | hr'
  · exact hu r hr r' hr' hsame hserial
  · exact absurd hserial (hfresh r hr r' hr' hsame)
  · exact absurd hserial.symm (hfresh r' hr' r hr hsame.symm)
  · rw [List.inj_on_of_nodup_map hnodup hr hr' hserial]

/-! ## Refusals -/

/-- On a store whose indexes hold, all that `x` raises is a refusal. -/
def Refuses {α : Type} (x : FleetTx α) : Prop := ∀ s e t, UniqueIndexes s.working →
  x s = (.error e, t) → ∃ code detail, e = .http code detail

omit [Casing] in
theorem refuses_pure {α : Type} (a : α) : Refuses (pure a : FleetTx α) :=
  fun _ _ _ _ h => absurd h (by simp)

omit [Casing] in
theorem refuses_update (f : Db → Db) : Refuses (update f) := fun _ _ _ _ h => by cases h

omit [Casing] in
theorem refuses_query : Refuses query := by
  intro s e t hu h
  have hq : query s = (.ok s.working, s) := query_ok.mpr ⟨hu, rfl, rfl⟩
  rw [hq] at h
  cases h

omit [Casing] in
theorem refuses_ensure (p : Prop) [Decidable p] (code : ℕ) (detail : String) :
    Refuses (ensure p (.http code detail)) :=
  fun _ _ _ _ h => ⟨code, detail, (ensure_error.mp h).2.1.symm⟩

omit [Casing] in
theorem refuses_lift {α : Type} {r : Except Exc α}
    (hr : ∀ e, r = .error e → ∃ code detail, e = .http code detail) :
    Refuses (lift r : FleetTx α) := fun _ e _ _ h => hr e (Prod.mk.inj h).1

omit [Casing] in
theorem Refuses.bind {α β : Type} {x : FleetTx α} {f : α → FleetTx β} (hx : Refuses x)
    (hread : ReadOnly x) (hf : ∀ a, Refuses (f a)) : Refuses (x >>= f) := by
  intro s e t hu h
  rcases bind_error.mp h with hfirst | ⟨a, s₁, ha, hrest⟩
  · exact hx s e t hu hfirst
  · obtain rfl := hread.eq ha
    exact hf a _ e t hu hrest

theorem bySerial_error {batteries : List Battery} {e : Exc} (h : bySerial batteries = .error e) :
    ∃ code detail, e = .http code detail := by
  obtain ⟨found, battery, h⟩ := foldlM_error h
  rcases except_bind_error.mp h with h | ⟨serial, -, h⟩
  · exact normalizeBatterySerial_error h
  · dsimp only at h
    split_ifs at h
    · exact ⟨_, _, (Except.error.inj h).symm⟩
    · cases h

theorem refuses_fetchAssigned (batteryIds : List String) : Refuses (fetchAssigned batteryIds) := by
  refine Refuses.bind (refuses_lift fun e => normalizeBatterySerials_error) (readOnly_lift _) ?_
  intro serials
  unfold fetchBatteriesCaseInsensitive
  split_ifs
  · exact refuses_pure _
  · refine refuses_query.bind readOnly_query fun db => ?_
    refine Refuses.bind (refuses_lift fun e => bySerial_error) (readOnly_lift _) fun found => ?_
    exact (refuses_ensure _ _ _).bind (readOnly_ensure _ _) fun _ => refuses_pure _

theorem refuses_mapM (raws : List String) :
    Refuses (lift (raws.mapM fun raw => normalizeBatterySerial raw)) := by
  refine refuses_lift fun e h => ?_
  obtain ⟨raw, -, hraw⟩ := mapM_error h
  exact normalizeBatterySerial_error hraw

theorem refuses_persistOrderBatteries (orderId : String) (batteryIds : List String) :
    Refuses (persistOrderBatteries orderId batteryIds) := by
  unfold persistOrderBatteries
  split_ifs
  · exact refuses_pure _
  · refine (refuses_mapM _).bind (readOnly_lift _) fun ids => ?_
    refine (refuses_fetchAssigned _).bind (readOnly_fetchAssigned _) fun batteries => ?_
    refine refuses_query.bind readOnly_query fun db => ?_
    exact (refuses_mapM _).bind (readOnly_lift _) fun _ => refuses_update _

/-! ## Reading the batteries of an order -/

variable {s t : Session Db} {u : Unit}

theorem persistOrderBatteries_ok {batteryIds : List String}
    (h : persistOrderBatteries orderId batteryIds s = (.ok u, t)) :
    Added orderId ((batteryIds.map normal).filter
        fun serial => serial ∉ serialsAt s.working.orderBatteries orderId)
      s.working.orderBatteries t.working.orderBatteries := by
  unfold persistOrderBatteries at h
  split_ifs at h with hnil
  · obtain ⟨-, rfl⟩ := pure_ok.mp h
    rw [hnil]
    exact added_refl _ _
  · rw [bind_ok] at h
    obtain ⟨ids, s₁, hids, h⟩ := h
    obtain ⟨hnormal, rfl⟩ := lift_ok.mp hids
    rw [bind_ok] at h
    obtain ⟨batteries, s₁, hfetch, h⟩ := h
    obtain rfl := (readOnly_fetchAssigned _).eq hfetch
    rw [bind_ok] at h
    obtain ⟨db, s₂, hq, h⟩ := h
    obtain ⟨-, rfl, rfl⟩ := query_ok.mp hq
    rw [bind_ok] at h
    obtain ⟨existing, s₂, hlift, h⟩ := h
    obtain ⟨hexisting, rfl⟩ := lift_ok.mp hlift
    rw [mapM_normal hexisting, map_rowSerials, mapM_normal hnormal] at h
    rw [← update_ok.mp h]
    exact added_addRows _ _ _ _

theorem persistOrderBatteries_new (hu : UniqueIndexes s.working) (hnodup : serials.Nodup)
    (hnormal : ∀ serial ∈ serials, normal serial = serial)
    (hnew : ∀ serial ∈ serials, serial ∉ serialsAt s.working.orderBatteries orderId)
    (h : persistOrderBatteries orderId serials s = (.ok u, t)) :
    Added orderId serials s.working.orderBatteries t.working.orderBatteries ∧
      UniqueIndexes t.working := by
  have hfilter : (serials.map normal).filter
      (fun serial => serial ∉ serialsAt s.working.orderBatteries orderId) = serials := by
    rw [map_normal hnormal]
    exact List.filter_eq_self.mpr fun serial hmem => decide_eq_true (hnew serial hmem)
  have hadded := persistOrderBatteries_ok h
  rw [hfilter] at hadded
  refine ⟨hadded, ?_⟩
  have hrest := ((fixes_persistOrderBatteries orderId serials).eq h).2
  have hu' : UniqueIndexes { exceptRows s.working with
      orderBatteries := t.working.orderBatteries } :=
    ⟨hu.serials, hu.shelfBatteries, hadded.unique hnodup hnormal hnew hu.orderBatteries⟩
  rw [← hrest] at hu'
  exact ⟨hu'.serials, hu'.shelfBatteries, hu'.orderBatteries⟩

/-- The savepoint never takes anything back: only serials without a row get one. -/
theorem persistMissing_iff (hu : UniqueIndexes s.working) (hnodup : serials.Nodup)
    (hnormal : ∀ serial ∈ serials, normal serial = serial)
    (hnew : ∀ serial ∈ serials, serial ∉ serialsAt s.working.orderBatteries orderId) :
    persistMissingOrderBatteries orderId serials s = (.ok (), t) ↔
      persistOrderBatteries orderId serials s = (.ok (), t) := by
  by_cases hnil : serials = []
  · rw [persistMissingOrderBatteries, persistOrderBatteries, if_pos hnil, if_pos hnil]
  rw [persistMissingOrderBatteries, if_neg hnil,
    bind_of_ok (a := ()) (flush_ok.mpr ⟨hu, rfl⟩)]
  rcases hpersist : persistOrderBatteries orderId serials s with ⟨e | _, s₁⟩
  · obtain ⟨code, detail, rfl⟩ := refuses_persistOrderBatteries _ _ _ _ _ hu hpersist
    rw [savepoint_of_error (bind_of_error hpersist)]
    exact iff_of_false (fun h => by cases h) fun h => by cases h
  · obtain ⟨-, hindexes⟩ := persistOrderBatteries_new hu hnodup hnormal hnew hpersist
    have hrun : (persistOrderBatteries orderId serials >>= fun _ => flush) s = (.ok (), s₁) :=
      (bind_of_ok hpersist).trans (flush_ok.mpr ⟨hindexes, rfl⟩)
    rw [savepoint_of_ok hrun]

theorem persistMissing_ok
    (hnodup : serials.Nodup) (hnormal : ∀ serial ∈ serials, normal serial = serial)
    (hnew : ∀ serial ∈ serials, serial ∉ serialsAt s.working.orderBatteries orderId)
    (h : persistMissingOrderBatteries orderId serials s = (.ok u, t)) :
    Added orderId serials s.working.orderBatteries t.working.orderBatteries := by
  by_cases hnil : serials = []
  · rw [persistMissingOrderBatteries, if_pos hnil] at h
    obtain ⟨-, rfl⟩ := pure_ok.mp h
    rw [hnil]
    exact added_refl _ _
  · have hflush := h
    rw [persistMissingOrderBatteries, if_neg hnil, bind_ok] at hflush
    obtain ⟨_, _, hflush, -⟩ := hflush
    obtain ⟨hu, -⟩ := flush_ok.mp hflush
    exact (persistOrderBatteries_new hu hnodup hnormal hnew
      ((persistMissing_iff hu hnodup hnormal hnew).mp h)).1

/-- The serials in the old JSON column. -/
def listedSerials (order : Order) : List String :=
  match order.assignedBatteryIds with
  | .array values => values.filterMap fun value => value.map normal
  | _ => []

theorem listedSerials_congr {order order' : Order}
    (h : order'.assignedBatteryIds = order.assignedBatteryIds) :
    listedSerials order' = listedSerials order := by
  unfold listedSerials
  rw [h]

variable {order : Order}

theorem normal_of_listed {serial : String} (h : serial ∈ listedSerials order) :
    normal serial = serial := by
  unfold listedSerials at h
  generalize order.assignedBatteryIds = column at h
  rcases column with _ | _ | _ | values
  · cases h
  · cases h
  · cases h
  · obtain ⟨value, -, hvalue⟩ := List.mem_filterMap.mp h
    obtain ⟨raw, -, rfl⟩ := Option.map_eq_some_iff.mp hvalue
    exact normal_normal raw

theorem parseAssigned_ok (h : parseAssignedBatteryIdsJson order = .ok serials) :
    serials = listedSerials order ∧ serials.Nodup := by
  unfold parseAssignedBatteryIdsJson at h
  unfold listedSerials
  generalize order.assignedBatteryIds = column at h ⊢
  rcases column with _ | _ | _ | values
  · obtain rfl := Except.ok.inj h
    exact ⟨rfl, List.nodup_nil⟩
  · cases h
  · cases h
  · dsimp only at h
    obtain ⟨raws, hraws, h⟩ := except_bind_ok.mp h
    obtain ⟨rfl, hnodup⟩ := normalizeBatterySerials_ok h
    refine ⟨?_, hnodup⟩
    have htexts := texts_of_mapM ?_ hraws
    · rw [List.zipIdx_map_fst] at htexts
      rw [htexts]
      dsimp only
      rw [List.filterMap_map]
      exact (congrFun List.filterMap_eq_map' raws).symm
    · rintro ⟨_ | text, idx⟩ raw hvalue
      · cases hvalue
      · obtain rfl := Except.ok.inj hvalue
        rfl

/-- **The batteries of an order**: those of its rows, and those that only the old column has, which
get their rows. -/
theorem getOrderBatteryIds_ok {ids : List String} (h : getOrderBatteryIds order s = (.ok ids, t)) :
    let missing := (listedSerials order).filter
      fun serial => serial ∉ serialsAt s.working.orderBatteries order.id
    ids = serialsAt s.working.orderBatteries order.id ++ missing ∧
      Added order.id missing s.working.orderBatteries t.working.orderBatteries := by
  rw [getOrderBatteryIds, bind_ok] at h
  obtain ⟨db, s₀, hq, h⟩ := h
  obtain ⟨-, rfl, rfl⟩ := query_ok.mp hq
  rw [bind_ok] at h
  obtain ⟨indexed, s₀, hlift, h⟩ := h
  obtain ⟨hindexed, rfl⟩ := lift_ok.mp hlift
  obtain ⟨rfl, -⟩ := normalizeBatterySerials_ok hindexed
  rw [bind_ok] at h
  obtain ⟨legacy, s₀, hlift', h⟩ := h
  obtain ⟨hlegacy, rfl⟩ := lift_ok.mp hlift'
  obtain ⟨rfl, hnodup⟩ := parseAssigned_ok hlegacy
  rw [bind_ok] at h
  obtain ⟨_, s₀, hensure, h⟩ := h
  obtain ⟨-, rfl⟩ := ensure_ok.mp hensure
  rw [bind_ok, map_rowSerials] at h
  obtain ⟨_, s₁, hpersist, h⟩ := h
  obtain ⟨rfl, rfl⟩ := pure_ok.mp h
  refine ⟨rfl, persistMissing_ok (hnodup.filter _) ?_ ?_ hpersist⟩
  · intro serial hmem
    exact normal_of_listed (List.mem_filter.mp hmem).1
  · intro serial hmem
    exact of_decide_eq_true (List.mem_filter.mp hmem).2

/-! ## The lock of active orders -/

variable {exclude : Option String}

/-- **The lock**: no active order but the excluded one has a row for one of the serials. -/
theorem assertBatteriesNotInActiveOrders_ok
    (h : assertBatteriesNotInActiveOrders serials exclude s = (.ok u, t))
    (hr : r ∈ s.working.orderBatteries) (horder : order ∈ s.working.orders)
    (hid : order.id = r.orderId) (hvisible : sqlOrderStatus order.status ∈ activeOrderStatuses)
    (hserial : sqlUpper r.batteryId ∈ serials.map normal) : some order.id = truthy exclude := by
  rw [assertBatteriesNotInActiveOrders, bind_ok] at h
  obtain ⟨normalized, s₁, hlift, h⟩ := h
  obtain ⟨hnormalized, rfl⟩ := lift_ok.mp hlift
  obtain ⟨rfl, -⟩ := normalizeBatterySerials_ok hnormalized
  split_ifs at h with hnil
  · rw [hnil] at hserial
    cases hserial
  · rw [bind_ok] at h
    obtain ⟨db, s₂, hq, h⟩ := h
    obtain ⟨-, rfl, rfl⟩ := query_ok.mp hq
    rw [bind_ok] at h
    obtain ⟨conflicts, s₂, hlift', h⟩ := h
    obtain ⟨hconflicts, rfl⟩ := lift_ok.mp hlift'
    obtain ⟨rfl, -⟩ := ensure_ok.mp h
    have hnone := mapM_nil hconflicts
    by_contra hne
    have hconflict : (r, order) ∈ orderConflicts s.working (serials.map normal) exclude := by
      have hget : s.working.orders.get? r.orderId = some order :=
        Table.get?_eq_some.mpr ⟨horder, hid⟩
      refine List.mem_filterMap.mpr ⟨r, hr, ?_⟩
      rw [hget, Option.filter_some, if_pos (decide_eq_true ⟨hvisible, hserial, hne⟩)]
      rfl
    rw [← List.mem_insertionSort fun a b : OrderBattery × Order => a.2.id ≤ b.2.id,
      hnone] at hconflict
    cases hconflict

theorem reserveOrderBatteries_ok {now : ℕ}
    (h : reserveOrderBatteries now orderId serials exclude s = (.ok u, t)) :
    assertBatteriesNotInActiveOrders serials exclude s = (.ok (), s) := by
  rw [reserveOrderBatteries, bind_ok] at h
  obtain ⟨batteries, s₁, hfetch, h⟩ := h
  obtain rfl := (readOnly_fetchAssigned _).eq hfetch
  rw [bind_ok] at h
  obtain ⟨_, s₂, hassert, -⟩ := h
  obtain rfl := (readOnly_assertOrders _ _).eq hassert
  exact hassert

end

end WezuBackend.Orders.Batteries
