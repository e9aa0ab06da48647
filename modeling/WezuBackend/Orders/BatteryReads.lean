import WezuBackend.Fleet.Sequences
import WezuBackend.Orders.Batteries

/-!
# When the batteries of an order can be read

The order endpoints read the serials of an order from its rows and its old JSON column, and the
batteries by their serials.  `reads_iff` says when that returns: the serials are readable and
different, and each of them names exactly one battery, which no other one is mistaken for.
-/

namespace WezuBackend.Orders.BatteryReads

open Lib.Results Lib.Atomicity Lib.Atomicity.Tx Core.Base Core.Letters Fleet.Model
open Fleet.Consistency Fleet.Transitions Fleet.Serials Fleet.Sequences Orders.Normalise
open Orders.Service Orders.Effects Orders.Batteries

section

variable [Casing]

/-! ## Batteries by their serials -/

/-- The batteries of the serials: each serial names one, and no two batteries that a look-up of the
serials finds have one normalised serial. -/
structure Found (db : Db) (serials : List String) (batteries : List Battery) : Prop where
  each : serialsOf batteries = serials
  mem : ∀ b ∈ batteries, b ∈ db.batteries ∧ sqlUpper b.serialNumber ∈ serials
  named : ∀ x ∈ db.batteries, sqlUpper x.serialNumber ∈ serials → normal x.serialNumber ≠ ""
  alone : ∀ x ∈ db.batteries, ∀ y ∈ db.batteries, sqlUpper x.serialNumber ∈ serials →
    sqlUpper y.serialNumber ∈ serials → normal x.serialNumber = normal y.serialNumber → x = y

variable {db : Db} {serials : List String} {batteries : List Battery}

theorem found_nil (db : Db) : Found db [] [] :=
  ⟨rfl, fun _ h => absurd h List.not_mem_nil, fun _ _ h => absurd h List.not_mem_nil,
    fun _ _ _ _ h => absurd h List.not_mem_nil⟩

theorem Found.apart (h : Found db serials batteries) (hnodup : serials.Nodup) :
    Apart db batteries where
  mem b hb := (h.mem b hb).1
  named b hb := h.named b (h.mem b hb).1 (h.mem b hb).2
  nodup := by rwa [h.each]
  alone b hb x hx hserial := by
    have hfound : sqlUpper x.serialNumber ∈ serials := by
      rw [hserial, sqlUpper_normal, ← h.each]
      exact mem_serialsOf.mpr ⟨b, hb, rfl⟩
    rw [h.alone x hx b (h.mem b hb).1 hfound (h.mem b hb).2 (by rw [hserial, normal_normal])]

variable {db' : Db}

theorem Found.of_batteries (h : Found db serials batteries)
    (hsame : db'.batteries = db.batteries) : Found db' serials batteries :=
  ⟨h.each, hsame ▸ h.mem, hsame ▸ h.named, hsame ▸ h.alone⟩

def keyed (b : Battery) : String × Battery := (normal b.serialNumber, b)

variable {b : Battery}

theorem bySerial_step {found found' : List (String × Battery)} : (do
      let serial ← normalizeBatterySerial b.serialNumber
      if serial ∈ found.map Prod.fst then
        throw (.http 409 ("Data integrity violation: multiple battery rows found for serial " ++
          s!"'{serial}' (case-insensitive match)"))
      return found ++ [(serial, b)] : Except Exc (List (String × Battery))) = .ok found' ↔
      normal b.serialNumber ≠ "" ∧ normal b.serialNumber ∉ found.map Prod.fst ∧
        found' = found ++ [keyed b] := by
  rw [except_bind_ok]
  constructor
  · rintro ⟨serial, hserial, h⟩
    obtain ⟨hname, rfl⟩ := normalizeBatterySerial_ok.mp hserial
    dsimp only at h
    split_ifs at h with hmem
    · cases h
    · exact ⟨hname, hmem, (Except.ok.inj h).symm⟩
  · rintro ⟨hname, hmem, rfl⟩
    refine ⟨_, normalizeBatterySerial_ok.mpr ⟨hname, rfl⟩, ?_⟩
    dsimp only
    rw [if_neg hmem]
    rfl

variable {l : List Battery}

theorem bySerial_ok {found : List (String × Battery)} :
    bySerial l = .ok found ↔ (∀ b ∈ l, normal b.serialNumber ≠ "") ∧ (serialsOf l).Nodup ∧
      found = l.map keyed := by
  -- the serials of the batteries that are left are none of those found
  have hfrom : ∀ (l : List Battery) (start found : List (String × Battery)),
      l.foldlM (fun found b => do
        let serial ← normalizeBatterySerial b.serialNumber
        if serial ∈ found.map Prod.fst then
          throw (.http 409 ("Data integrity violation: multiple battery rows found for serial " ++
            s!"'{serial}' (case-insensitive match)"))
        return found ++ [(serial, b)] : _ → _ → Except Exc (List (String × Battery))) start =
          .ok found ↔ (∀ b ∈ l, normal b.serialNumber ≠ "") ∧ (serialsOf l).Nodup ∧
            (∀ b ∈ l, normal b.serialNumber ∉ start.map Prod.fst) ∧
              found = start ++ l.map keyed := by
    intro l
    induction l with
    | nil =>
      intro start found
      rw [List.foldlM_nil, List.map_nil, List.append_nil]
      refine ⟨fun h => ?_, fun h => congrArg Except.ok h.2.2.2.symm⟩
      exact ⟨fun _ hb => absurd hb List.not_mem_nil, List.nodup_nil,
        fun _ hb => absurd hb List.not_mem_nil, (Except.ok.inj h).symm⟩
    | cons b l ih =>
      intro start found
      have hcons : serialsOf (b :: l) = normal b.serialNumber :: serialsOf l := rfl
      rw [List.foldlM_cons, except_bind_ok, hcons, List.nodup_cons, List.forall_mem_cons,
        List.forall_mem_cons, List.map_cons]
      constructor
      · rintro ⟨next, hnext, h⟩
        obtain ⟨hname, hnew, rfl⟩ := bySerial_step.mp hnext
        obtain ⟨hnames, hnodup, hnews, rfl⟩ := (ih _ _).mp h
        rw [List.map_append] at hnews
        refine ⟨⟨hname, hnames⟩, ⟨fun hmem => ?_, hnodup⟩, ⟨hnew, fun x hx hmem => ?_⟩, by simp⟩
        · obtain ⟨x, hx, hsame⟩ := mem_serialsOf.mp hmem
          exact hnews x hx (List.mem_append_right _ (by simp [keyed, hsame]))
        · exact hnews x hx (List.mem_append_left _ hmem)
      · rintro ⟨⟨hname, hnames⟩, ⟨hfirst, hnodup⟩, ⟨hnew, hnews⟩, rfl⟩
        refine ⟨_, bySerial_step.mpr ⟨hname, hnew, rfl⟩, (ih _ _).mpr ⟨hnames, hnodup, ?_, by simp⟩⟩
        intro x hx hmem
        rw [List.map_append, List.mem_append] at hmem
        rcases hmem with hmem | hmem
        · exact hnews x hx hmem
        · refine hfirst (mem_serialsOf.mpr ⟨x, hx, ?_⟩)
          simpa [keyed] using hmem
  unfold bySerial
  rw [hfrom]
  simp

theorem lookup_keyed (hnodup : (serialsOf l).Nodup) (hb : b ∈ l) :
    (l.map keyed).lookup (normal b.serialNumber) = some b := by
  induction l with
  | nil => cases hb
  | cons x l ih =>
    obtain ⟨hnew, hrest⟩ := List.nodup_cons.mp hnodup
    rw [List.map_cons, keyed, List.lookup_cons]
    rcases List.mem_cons.mp hb with rfl | hb
    · simp
    · have hne : normal b.serialNumber ≠ normal x.serialNumber := fun hsame =>
        hnew (mem_serialsOf.mpr ⟨b, hb, hsame⟩)
      rw [beq_false_of_ne hne]
      exact ih hrest hb

theorem filterMap_lookup {l found : List Battery} (hnodup : (serialsOf l).Nodup)
    (hsub : ∀ b ∈ found, b ∈ l) :
    (serialsOf found).filterMap (fun s => (l.map keyed).lookup s) = found := by
  induction found with
  | nil => rfl
  | cons b found ih =>
    have hcons : serialsOf (b :: found) = normal b.serialNumber :: serialsOf found := rfl
    have hfirst := lookup_keyed hnodup (hsub b List.mem_cons_self)
    rw [hcons, List.filterMap_cons, hfirst, ih fun x hx => hsub x (List.mem_cons_of_mem _ hx)]

theorem exists_serialsOf (h : ∀ s ∈ serials, s ∈ serialsOf l) :
    ∃ found, serialsOf found = serials ∧ ∀ b ∈ found, b ∈ l := by
  induction serials with
  | nil => exact ⟨[], rfl, fun _ hb => absurd hb List.not_mem_nil⟩
  | cons s serials ih =>
    obtain ⟨b, hb, hserial⟩ := mem_serialsOf.mp (h s List.mem_cons_self)
    obtain ⟨found, rfl, hsub⟩ := ih fun x hx => h x (List.mem_cons_of_mem _ hx)
    refine ⟨b :: found, by rw [← hserial]; rfl, List.forall_mem_cons.mpr ⟨hb, hsub⟩⟩

theorem normalizeBatterySerials_optional {raws serials : List String} {field : String} :
    normalizeBatterySerials raws field false = .ok serials ↔ (∀ raw ∈ raws, normal raw ≠ "") ∧
      (raws.map normal).Nodup ∧ raws.map normal = serials := by
  rw [normalizeBatterySerials, except_bind_ok]
  constructor
  · rintro ⟨normalized, hnormalized, h⟩
    obtain ⟨hnames, -, hnodup, rfl⟩ := normalizeFrom_iff.mp hnormalized
    obtain rfl := Except.ok.inj h
    exact ⟨hnames, hnodup, rfl⟩
  · rintro ⟨hnames, hnodup, rfl⟩
    exact ⟨_, normalizeFrom_iff.mpr ⟨hnames, fun _ _ => List.not_mem_nil, hnodup, rfl⟩, rfl⟩

theorem fetchAssigned_iff {s : Session Db} (hu : UniqueIndexes s.working)
    (hnormal : ∀ serial ∈ serials, normal serial = serial ∧ serial ≠ "") (hnodup : serials.Nodup) :
    fetchAssigned serials s = (.ok batteries, s) ↔ Found s.working serials batteries := by
  have hmap : serials.map normal = serials := map_normal fun serial h => (hnormal serial h).1
  have hserials : normalizeBatterySerials serials "assigned_battery_ids" false = .ok serials := by
    refine normalizeBatterySerials_optional.mpr ⟨fun serial h => ?_, hmap.symm ▸ hnodup, hmap⟩
    rw [(hnormal serial h).1]
    exact (hnormal serial h).2
  rw [fetchAssigned, fetchBatteriesBySerials, lift_bind hserials, fetchBatteriesCaseInsensitive]
  by_cases hnil : serials = []
  · rw [if_pos hnil]
    subst hnil
    constructor
    · intro h
      obtain ⟨rfl, -⟩ := pure_ok.mp h
      exact found_nil _
    · intro h
      rw [List.map_eq_nil_iff.mp h.each]
      rfl
  rw [if_neg hnil, bind_of_ok (query_ok.mpr ⟨hu, rfl, rfl⟩)]
  obtain ⟨rows, hrows⟩ : ∃ rows, rows = (s.working.batteries.rows.filter fun b =>
      sqlUpper b.serialNumber ∈ serials).insertionSort
        fun a b => sqlUpper a.serialNumber ≤ sqlUpper b.serialNumber := ⟨_, rfl⟩
  have hmem : ∀ b, b ∈ rows ↔ b ∈ s.working.batteries ∧ sqlUpper b.serialNumber ∈ serials := by
    intro b
    rw [hrows, List.mem_insertionSort, List.mem_filter, decide_eq_true_eq]
    rfl
  have hlist : rows.Nodup := by
    rw [hrows, (List.perm_insertionSort _ _).nodup_iff]
    exact (List.Nodup.of_map _ s.working.batteries.nodup).filter _
  have halone : (serialsOf rows).Nodup ↔ ∀ x ∈ rows, ∀ y ∈ rows,
      normal x.serialNumber = normal y.serialNumber → x = y := List.nodup_map_iff_inj_on hlist
  have hkeys : (rows.map keyed).map Prod.fst = serialsOf rows := List.map_map
  rw [← hrows]
  constructor
  · intro h
    obtain ⟨found, s₁, hlift, h⟩ := bind_ok.mp h
    obtain ⟨hbySerial, rfl⟩ := lift_ok.mp hlift
    obtain ⟨hnames, hserials, rfl⟩ := bySerial_ok.mp hbySerial
    obtain ⟨_, s₁, hensure, h⟩ := bind_ok.mp h
    obtain ⟨hmissing, rfl⟩ := ensure_ok.mp hensure
    obtain ⟨hresult, -⟩ := pure_ok.mp h
    rw [hkeys, List.filter_eq_nil_iff] at hmissing
    have hthere : ∀ serial ∈ serials, serial ∈ serialsOf rows := fun serial h => by
      simpa using hmissing serial h
    obtain ⟨found, hfound, hsub⟩ := exists_serialsOf hthere
    have hall := filterMap_lookup hserials hsub
    rw [hfound, hresult] at hall
    subst hall
    exact ⟨hfound, fun b hb => (hmem b).mp (hsub b hb),
      fun x hx hs => hnames x ((hmem x).mpr ⟨hx, hs⟩), fun x hx y hy hsx hsy =>
        halone.mp hserials x ((hmem x).mpr ⟨hx, hsx⟩) y ((hmem y).mpr ⟨hy, hsy⟩)⟩
  · intro h
    have hsub : ∀ b ∈ batteries, b ∈ rows := fun b hb => (hmem b).mpr (h.mem b hb)
    have hserials : (serialsOf rows).Nodup := halone.mpr fun x hx y hy =>
      h.alone x ((hmem x).mp hx).1 y ((hmem y).mp hy).1 ((hmem x).mp hx).2 ((hmem y).mp hy).2
    have hfound : bySerial rows = .ok (rows.map keyed) := bySerial_ok.mpr
      ⟨fun b hb => h.named b ((hmem b).mp hb).1 ((hmem b).mp hb).2, hserials, rfl⟩
    have hmissing : (serials.filter fun s => s ∉ (rows.map keyed).map Prod.fst) = [] := by
      rw [hkeys, List.filter_eq_nil_iff]
      intro serial hserial
      rw [← h.each] at hserial
      obtain ⟨b, hb, hname⟩ := mem_serialsOf.mp hserial
      simpa using mem_serialsOf.mpr ⟨b, hsub b hb, hname⟩
    rw [lift_bind hfound, ensure_bind hmissing]
    have hall := filterMap_lookup hserials hsub
    rw [h.each] at hall
    rw [hall]
    rfl

/-! ## The serials of an order -/

/-- The serials that only the old column of the order has. -/
def missingOf (db : Db) (order : Order) : List String :=
  (listedSerials order).filter fun serial => serial ∉ serialsAt db.orderBatteries order.id

def batteryIdsOf (db : Db) (order : Order) : List String :=
  serialsAt db.orderBatteries order.id ++ missingOf db order

structure Reads (db : Db) (order : Order) (batteries : List Battery) : Prop where
  rows : ∀ raw ∈ rowSerials db order.id, normal raw ≠ ""
  once : (serialsAt db.orderBatteries order.id).Nodup
  column : ∃ serials, parseAssignedBatteryIdsJson order = .ok serials
  missing : ∃ found, Found db (missingOf db order) found
  found : Found db (batteryIdsOf db order) batteries

variable {order : Order} {s t : Session Db}

theorem Reads.congr {order' : Order} (h : Reads db order batteries)
    (hbatteries : db'.batteries = db.batteries) (hrows : db'.orderBatteries = db.orderBatteries)
    (hid : order'.id = order.id) (hcolumn : order'.assignedBatteryIds = order.assignedBatteryIds) :
    Reads db' order' batteries := by
  have hserials : rowSerials db' order'.id = rowSerials db order.id := by
    unfold rowSerials
    rw [hrows, hid]
  have hmissing : missingOf db' order' = missingOf db order := by
    unfold missingOf
    rw [listedSerials_congr hcolumn, hrows, hid]
  have hids : batteryIdsOf db' order' = batteryIdsOf db order := by
    unfold batteryIdsOf
    rw [hmissing, hrows, hid]
  have hparse : parseAssignedBatteryIdsJson order' = parseAssignedBatteryIdsJson order := by
    unfold parseAssignedBatteryIdsJson
    rw [hcolumn, hid]
  obtain ⟨found, hfound⟩ := h.missing
  refine ⟨?_, ?_, ?_, ⟨found, ?_⟩, ?_⟩
  · rw [hserials]
    exact h.rows
  · rw [hrows, hid]
    exact h.once
  · rw [hparse]
    exact h.column
  · rw [hmissing]
    exact hfound.of_batteries hbatteries
  · rw [hids]
    exact h.found.of_batteries hbatteries

theorem named_of_parsed {serials : List String}
    (h : parseAssignedBatteryIdsJson order = .ok serials) : ∀ serial ∈ serials, serial ≠ "" := by
  unfold parseAssignedBatteryIdsJson at h
  generalize order.assignedBatteryIds = column at h
  rcases column with _ | _ | _ | values
  · obtain rfl := Except.ok.inj h
    exact fun _ hmem => absurd hmem List.not_mem_nil
  · cases h
  · cases h
  · dsimp only at h
    obtain ⟨raws, -, h⟩ := except_bind_ok.mp h
    obtain ⟨hnames, -, rfl⟩ := normalizeBatterySerials_optional.mp h
    intro serial hmem
    obtain ⟨raw, hraw, rfl⟩ := List.mem_map.mp hmem
    exact hnames raw hraw

/-- The serials that are missing among the rows. -/
structure Missing (db : Db) (order : Order) : Prop where
  nodup : (missingOf db order).Nodup
  normal : ∀ serial ∈ missingOf db order, normal serial = serial
  named : ∀ serial ∈ missingOf db order, serial ≠ ""
  new : ∀ serial ∈ missingOf db order, serial ∉ serialsAt db.orderBatteries order.id

theorem missing_of_column (db : Db) {serials : List String}
    (h : parseAssignedBatteryIdsJson order = .ok serials) : Missing db order := by
  have hnames := named_of_parsed h
  obtain ⟨rfl, hnodup⟩ := parseAssigned_ok h
  exact ⟨hnodup.filter _, fun serial hmem => normal_of_listed (List.mem_filter.mp hmem).1,
    fun serial hmem => hnames serial (List.mem_filter.mp hmem).1,
    fun serial hmem => of_decide_eq_true (List.mem_filter.mp hmem).2⟩

theorem batteryIds_normal (hrows : ∀ raw ∈ rowSerials db order.id, normal raw ≠ "")
    (hmissing : Missing db order) :
    ∀ serial ∈ batteryIdsOf db order, normal serial = serial ∧ serial ≠ "" := by
  intro serial hmem
  rcases List.mem_append.mp hmem with hmem | hmem
  · rw [← map_rowSerials] at hmem
    obtain ⟨raw, hraw, rfl⟩ := List.mem_map.mp hmem
    exact ⟨normal_normal raw, hrows raw hraw⟩
  · exact ⟨hmissing.normal serial hmem, hmissing.named serial hmem⟩

theorem batteryIds_nodup (honce : (serialsAt db.orderBatteries order.id).Nodup)
    (hmissing : Missing db order) : (batteryIdsOf db order).Nodup :=
  List.nodup_append.mpr ⟨honce, hmissing.nodup, fun _ hmem x hx heq =>
    hmissing.new x hx (heq ▸ hmem)⟩

theorem batteryIdsOf_eq_nil : batteryIdsOf db order = [] ↔
    serialsAt db.orderBatteries order.id = [] ∧ listedSerials order = [] := by
  unfold batteryIdsOf missingOf
  rw [List.append_eq_nil_iff]
  refine and_congr_right fun hrows => ?_
  rw [hrows]
  simp

theorem mapM_normalize {raws : List String} :
    (raws.mapM fun raw => normalizeBatterySerial raw) = .ok (raws.map normal) ↔
      ∀ raw ∈ raws, normal raw ≠ "" := by
  constructor
  · intro h raw hraw
    obtain ⟨serial, -, hserial⟩ := mapM_ok_of_mem h hraw
    exact (normalizeBatterySerial_ok.mp hserial).1
  · intro h
    induction raws with
    | nil => rfl
    | cons raw raws ih =>
      rw [List.mapM_cons, except_bind_ok]
      refine ⟨_, normalizeBatterySerial_ok.mpr ⟨h raw List.mem_cons_self, rfl⟩, ?_⟩
      rw [except_bind_ok]
      exact ⟨_, ih fun x hx => h x (List.mem_cons_of_mem _ hx), rfl⟩

theorem persistOrderBatteries_iff {orderId : String} {serials : List String}
    (hu : UniqueIndexes s.working) (hrows : ∀ raw ∈ rowSerials s.working orderId, normal raw ≠ "")
    (hnormal : ∀ serial ∈ serials, normal serial = serial ∧ serial ≠ "") (hnodup : serials.Nodup) :
    (∃ t, persistOrderBatteries orderId serials s = (.ok (), t)) ↔
      ∃ found, Found s.working serials found := by
  by_cases hnil : serials = []
  · rw [persistOrderBatteries, if_pos hnil, hnil]
    exact iff_of_true ⟨s, rfl⟩ ⟨[], found_nil _⟩
  have hids : (serials.mapM fun id => normalizeBatterySerial id) = .ok serials := by
    have hmap : serials.map normal = serials := map_normal fun serial h => (hnormal serial h).1
    have hok := mapM_normalize.mpr fun serial h => by
      rw [(hnormal serial h).1]
      exact (hnormal serial h).2
    rwa [hmap] at hok
  rw [persistOrderBatteries, if_neg hnil, lift_bind hids]
  constructor
  · rintro ⟨t, h⟩
    obtain ⟨found, s₁, hfetch, -⟩ := bind_ok.mp h
    obtain rfl := (readOnly_fetchAssigned _).eq hfetch
    exact ⟨found, (fetchAssigned_iff hu hnormal hnodup).mp hfetch⟩
  · rintro ⟨found, hfound⟩
    rw [bind_of_ok ((fetchAssigned_iff hu hnormal hnodup).mpr hfound),
      bind_of_ok (query_ok.mpr ⟨hu, rfl, rfl⟩), lift_bind (mapM_normalize.mpr hrows)]
    exact ⟨_, rfl⟩

omit [Casing] in
theorem batteries_of_rows {db db' : Db} (h : exceptRows db' = exceptRows db) :
    db'.batteries = db.batteries := by
  show (exceptRows db').batteries = (exceptRows db).batteries
  rw [h]

variable {ids : List String}

theorem getOrderBatteryIds_iff (hu : UniqueIndexes s.working) :
    (∃ t, getOrderBatteryIds order s = (.ok ids, t)) ↔
      (∀ raw ∈ rowSerials s.working order.id, normal raw ≠ "") ∧
      (serialsAt s.working.orderBatteries order.id).Nodup ∧
      (∃ serials, parseAssignedBatteryIdsJson order = .ok serials) ∧
      (∃ found, Found s.working (missingOf s.working order) found) ∧
      ids = batteryIdsOf s.working order ∧
      (ids = [] → canonicalOrderStatus order.status ∉ ["in_transit", "delivered"]) := by
  rw [getOrderBatteryIds, bind_of_ok (query_ok.mpr ⟨hu, rfl, rfl⟩)]
  constructor
  · rintro ⟨t, h⟩
    obtain ⟨indexed, s₁, hlift, h⟩ := bind_ok.mp h
    obtain ⟨hindexed, rfl⟩ := lift_ok.mp hlift
    obtain ⟨hrows, honce, rfl⟩ := normalizeBatterySerials_optional.mp hindexed
    obtain ⟨legacy, s₁, hlift', h⟩ := bind_ok.mp h
    obtain ⟨hlegacy, rfl⟩ := lift_ok.mp hlift'
    have hmissing := missing_of_column s.working hlegacy
    obtain ⟨rfl, -⟩ := parseAssigned_ok hlegacy
    obtain ⟨_, s₁, hensure, h⟩ := bind_ok.mp h
    obtain ⟨hsome, rfl⟩ := ensure_ok.mp hensure
    rw [map_rowSerials] at honce hsome h
    obtain ⟨_, s₁, hpersist, h⟩ := bind_ok.mp h
    obtain ⟨rfl, rfl⟩ := pure_ok.mp h
    have hpersist' :=
      (persistMissing_iff hu hmissing.nodup hmissing.normal hmissing.new).mp hpersist
    refine ⟨hrows, honce, ⟨_, hlegacy⟩, ?_, rfl, fun hnil => ?_⟩
    · exact (persistOrderBatteries_iff hu hrows
        (fun serial h => ⟨hmissing.normal serial h, hmissing.named serial h⟩) hmissing.nodup).mp
          ⟨_, hpersist'⟩
    · obtain ⟨hindexed, hlisted⟩ := batteryIdsOf_eq_nil.mp hnil
      exact hsome hindexed hlisted
  · rintro ⟨hrows, honce, ⟨legacy, hlegacy⟩, hfound, rfl, hsome⟩
    have hmissing := missing_of_column s.working hlegacy
    obtain ⟨hlisted, -⟩ := parseAssigned_ok hlegacy
    have hindexed : normalizeBatterySerials (rowSerials s.working order.id) "assigned_battery_ids"
        false = .ok (serialsAt s.working.orderBatteries order.id) :=
      normalizeBatterySerials_optional.mpr ⟨hrows, by rwa [map_rowSerials], map_rowSerials _ _⟩
    have hensure : serialsAt s.working.orderBatteries order.id = [] → legacy = [] →
        canonicalOrderStatus order.status ∉ ["in_transit", "delivered"] := fun hnil hnil' =>
      hsome (batteryIdsOf_eq_nil.mpr ⟨hnil, hlisted ▸ hnil'⟩)
    obtain ⟨t, ht⟩ := (persistOrderBatteries_iff hu hrows
      (fun serial h => ⟨hmissing.normal serial h, hmissing.named serial h⟩)
        hmissing.nodup).mpr hfound
    have hpersist := (persistMissing_iff hu hmissing.nodup hmissing.normal hmissing.new).mpr ht
    rw [lift_bind hindexed, lift_bind hlegacy]
    refine ⟨t, (ensure_bind hensure _ _ _).trans ?_⟩
    subst hlisted
    exact (bind_of_ok hpersist).trans rfl

theorem getOrderBatteryIds_left (hu : UniqueIndexes s.working)
    (h : getOrderBatteryIds order s = (.ok ids, t)) :
    t.committed = s.committed ∧ exceptRows t.working = exceptRows s.working ∧
      Added order.id (missingOf s.working order) s.working.orderBatteries
        t.working.orderBatteries ∧ UniqueIndexes t.working := by
  obtain ⟨hcommitted, hrest⟩ := (fixes_getOrderBatteryIds order).eq h
  obtain ⟨-, hadded⟩ := getOrderBatteryIds_ok h
  obtain ⟨-, -, ⟨_, hcolumn⟩, -⟩ := (getOrderBatteryIds_iff hu).mp ⟨t, h⟩
  have hmissing := missing_of_column s.working hcolumn
  refine ⟨hcommitted, hrest, hadded, ?_⟩
  have hu' : UniqueIndexes { exceptRows s.working with
      orderBatteries := t.working.orderBatteries } :=
    ⟨hu.serials, hu.shelfBatteries,
      hadded.unique hmissing.nodup hmissing.normal hmissing.new hu.orderBatteries⟩
  rw [← hrest] at hu'
  exact ⟨hu'.serials, hu'.shelfBatteries, hu'.orderBatteries⟩

def ReadsTo (order : Order) (s : Session Db) (batteries : List Battery) (t : Session Db) : Prop :=
  ∃ ids, getOrderBatteryIds order s = (.ok ids, t) ∧ fetchAssigned ids t = (.ok batteries, t)

theorem reads_iff (hu : UniqueIndexes s.working) :
    (∃ t, ReadsTo order s batteries t) ↔ Reads s.working order batteries ∧
      (batteries = [] → canonicalOrderStatus order.status ∉ ["in_transit", "delivered"]) := by
  have hfetch : ∀ ids t, getOrderBatteryIds order s = (.ok ids, t) →
      (fetchAssigned ids t = (.ok batteries, t) ↔ Found s.working ids batteries) := by
    intro ids t h
    obtain ⟨hrows, honce, ⟨_, hcolumn⟩, -, rfl, -⟩ := (getOrderBatteryIds_iff hu).mp ⟨t, h⟩
    obtain ⟨-, hrest, -, hu'⟩ := getOrderBatteryIds_left hu h
    have hmissing := missing_of_column s.working hcolumn
    have hsame : t.working.batteries = s.working.batteries := batteries_of_rows hrest
    rw [fetchAssigned_iff hu' (batteryIds_normal hrows hmissing) (batteryIds_nodup honce hmissing)]
    exact ⟨fun h => h.of_batteries hsame.symm, fun h => h.of_batteries hsame⟩
  have hnil : ∀ ids, Found s.working ids batteries → (ids = [] ↔ batteries = []) := by
    intro ids h
    rw [← h.each]
    exact List.map_eq_nil_iff
  constructor
  · rintro ⟨t, ids, hids, hbatteries⟩
    have hfound := (hfetch ids t hids).mp hbatteries
    obtain ⟨hrows, honce, hcolumn, hmissing, rfl, hsome⟩ :=
      (getOrderBatteryIds_iff hu).mp ⟨t, hids⟩
    exact ⟨⟨hrows, honce, hcolumn, hmissing, hfound⟩, fun h => hsome ((hnil _ hfound).mpr h)⟩
  · rintro ⟨h, hsome⟩
    obtain ⟨t, ht⟩ := (getOrderBatteryIds_iff hu).mpr ⟨h.rows, h.once, h.column, h.missing, rfl,
      fun hids => hsome ((hnil _ h.found).mp hids)⟩
    exact ⟨t, _, ht, (hfetch _ t ht).mpr h.found⟩

end

end WezuBackend.Orders.BatteryReads
