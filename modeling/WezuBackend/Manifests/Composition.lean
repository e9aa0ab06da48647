import WezuBackend.Manifests.Requests

/-!
# Partial receipts compose

A request to receive is accepted exactly if it is well formed, its manifest can be received and the
slots of its serials admit its updates (`receiveManifest_ok`, `receiveManifest_of`).  What it leaves
is the run of its updates on the slots, and the status that these determine.  An update acts on the
slot of its serial only, so that the updates of an accepted request go through in any order and in
any number of requests, and leave the same.
-/

namespace WezuBackend.Manifests.Composition

open Lib.Tables Lib.Results Lib.Atomicity
open Lib.Atomicity.Tx Lib.Runs Lib.LocalUpdates
open Core.Base Core.Text Core.Letters Fleet.Model
open Fleet.Consistency Fleet.Serials
open Orders.Service (normalizeIdempotencyKey)
open Manifests.Service hiding flush query commitAll
open Manifests.Intake Manifests.Receiving Manifests.Requests

section

variable [Casing]

/-! ## The updates of a request -/

/-- The normalised update, if its status is one. -/
def updateOf (item : ManifestItemUpdate) : Option ItemUpdate :=
  (allowedManifestItemStatuses.lookup (lower (strip item.status))).map fun status =>
    ⟨normal item.batteryId, status, cleaned item.damageReport, cleaned item.damagePhotoPath⟩

omit [Casing] in
theorem normalizeManifestItemStatus_ok {raw field : String} {status : ItemStatus} :
    normalizeManifestItemStatus raw field = .ok status ↔
      allowedManifestItemStatuses.lookup (lower (strip raw)) = some status := by
  unfold normalizeManifestItemStatus
  rcases allowedManifestItemStatuses.lookup (lower (strip raw)) with _ | st
  · simp
  · simp

variable {items : List ManifestItemUpdate} {us : List ItemUpdate}

theorem normalizeUpdates_ok {index : ℕ} :
    normalizeUpdates index ((items.map fun i => normal i.batteryId).zip items) = .ok us ↔
      items.map updateOf = us.map some := by
  induction items generalizing index us with
  | nil =>
    constructor
    · intro h
      obtain rfl := Except.ok.inj h
      rfl
    · intro h
      obtain rfl := List.map_eq_nil_iff.mp h.symm
      rfl
  | cons item items ih =>
    rw [List.map_cons, List.zip_cons_cons, normalizeUpdates, except_bind_ok, List.map_cons]
    constructor
    · rintro ⟨status, hstatus, h⟩
      obtain ⟨rest, hrest, h⟩ := except_bind_ok.mp h
      obtain rfl := Except.ok.inj h
      rw [List.map_cons, ih.mp hrest, updateOf, normalizeManifestItemStatus_ok.mp hstatus]
      rfl
    · intro h
      rcases us with _ | ⟨u, us⟩
      · cases h
      · obtain ⟨hu, hus⟩ := List.cons.inj h
        obtain ⟨status, hstatus, rfl⟩ := Option.map_eq_some_iff.mp hu
        exact ⟨status, normalizeManifestItemStatus_ok.mpr hstatus,
          except_bind_ok.mpr ⟨us, ih.mpr hus, rfl⟩⟩

/-- The items of a request that is not refused as it stands. -/
structure WellFormed (items : List ManifestItemUpdate) : Prop where
  nonempty : items ≠ []
  named : ∀ i ∈ items, normal i.batteryId ≠ ""
  nodup : (items.map fun i => normal i.batteryId).Nodup
  statuses : ∀ i ∈ items, (updateOf i).isSome

theorem map_updateOf_iff :
    items.map updateOf = us.map some ↔
      (∀ i ∈ items, (updateOf i).isSome) ∧ items.filterMap updateOf = us := by
  induction items generalizing us with
  | nil =>
    rw [List.map_nil, List.filterMap_nil]
    constructor
    · exact fun h => ⟨nofun, (List.map_eq_nil_iff.mp h.symm).symm⟩
    · rintro ⟨-, rfl⟩
      rfl
  | cons item items ih =>
    rw [List.map_cons, List.forall_mem_cons]
    rcases hitem : updateOf item with _ | u
    · rw [Option.isSome_none]
      constructor
      · intro h
        rcases us with _ | ⟨x, us⟩
        · cases h
        · cases (List.cons.inj h).1
      · rintro ⟨⟨h, -⟩, -⟩
        cases h
    · rw [List.filterMap_cons_some hitem, Option.isSome_some]
      rcases us with _ | ⟨x, us⟩
      · simp
      · rw [List.map_cons, List.cons.injEq, List.cons.injEq, ih, Option.some_inj]
        constructor
        · rintro ⟨rfl, hsome, rfl⟩
          exact ⟨⟨rfl, hsome⟩, rfl, rfl⟩
        · rintro ⟨⟨-, hsome⟩, rfl, rfl⟩
          exact ⟨rfl, hsome, rfl⟩

/-- A request's items go through the checks that do not look at the tables. -/
theorem checked_iff {data : ManifestReceiveRequest} :
    (∃ serials, assertUniqueManifestItemUpdates data = .ok serials ∧
        normalizeUpdates 0 (serials.zip data.items) = .ok us) ↔
      WellFormed data.items ∧ data.items.filterMap updateOf = us := by
  unfold assertUniqueManifestItemUpdates
  by_cases hempty : data.items = []
  · rw [hempty]
    constructor
    · rintro ⟨serials, h, -⟩
      cases h
    · rintro ⟨h, -⟩
      exact absurd rfl h.nonempty
  · have hmap : (data.items.map ManifestItemUpdate.batteryId).map normal =
        data.items.map fun i => normal i.batteryId := List.map_map
    have hraw : data.items.map ManifestItemUpdate.batteryId ≠ [] := fun h =>
      hempty (List.map_eq_nil_iff.mp h)
    have hchecks : ∀ serials, ((do
        if data.items = [] then
          throw (Exc.http 400 "At least one manifest item update is required")
        normalizeBatterySerials (data.items.map ManifestItemUpdate.batteryId)
          "items.battery_id") = .ok serials) ↔
        (∀ i ∈ data.items, normal i.batteryId ≠ "") ∧
          (data.items.map fun i => normal i.batteryId).Nodup ∧
          (data.items.map fun i => normal i.batteryId) = serials := by
      intro serials
      rw [if_neg hempty]
      refine normalizeBatterySerials_iff.trans ?_
      rw [hmap, List.forall_mem_map]
      exact and_iff_right hraw
    constructor
    · rintro ⟨serials, hserials, hupdates⟩
      obtain ⟨hnamed, hnodup, rfl⟩ := (hchecks serials).mp hserials
      obtain ⟨hsome, rfl⟩ := map_updateOf_iff.mp (normalizeUpdates_ok.mp hupdates)
      exact ⟨⟨hempty, hnamed, hnodup, hsome⟩, rfl⟩
    · rintro ⟨h, rfl⟩
      exact ⟨_, (hchecks _).mpr ⟨h.named, h.nodup, rfl⟩,
        normalizeUpdates_ok.mpr (map_updateOf_iff.mpr ⟨h.statuses, rfl⟩)⟩

theorem updateOf_batteryId {item : ManifestItemUpdate} {u : ItemUpdate}
    (h : updateOf item = some u) : u.batteryId = normal item.batteryId := by
  obtain ⟨status, -, rfl⟩ := Option.map_eq_some_iff.mp h
  rfl

theorem map_batteryId_filterMap (h : ∀ i ∈ items, (updateOf i).isSome) :
    (items.filterMap updateOf).map ItemUpdate.batteryId =
      items.map fun i => normal i.batteryId := by
  induction items with
  | nil => rfl
  | cons item items ih =>
    rw [List.forall_mem_cons] at h
    obtain ⟨u, hu⟩ := Option.isSome_iff_exists.mp h.1
    rw [List.filterMap_cons_some hu, List.map_cons, List.map_cons, ih h.2, updateOf_batteryId hu]

theorem WellFormed.serials (h : WellFormed items) :
    Serials (items.filterMap updateOf) where
  normal u hu := by
    obtain ⟨item, -, hitem⟩ := List.mem_filterMap.mp hu
    rw [updateOf_batteryId hitem, normal_normal]
  named u hu := by
    obtain ⟨item, hmem, hitem⟩ := List.mem_filterMap.mp hu
    rw [updateOf_batteryId hitem]
    exact h.named item hmem
  nodup := by
    rw [map_batteryId_filterMap h.statuses]
    exact h.nodup

theorem WellFormed.updates_ne_nil (h : WellFormed items) :
    items.filterMap updateOf ≠ [] := by
  intro hnil
  have hmap := map_batteryId_filterMap h.statuses
  rw [hnil] at hmap
  exact h.nonempty (List.map_eq_nil_iff.mp hmap.symm)

theorem WellFormed.part (h : WellFormed items)
    {parts : List (List ManifestItemUpdate)} (hperm : parts.flatten.Perm items)
    {part : List ManifestItemUpdate} (hpart : part ∈ parts) (hne : part ≠ []) :
    WellFormed part := by
  have hsub : ∀ i ∈ part, i ∈ items := fun i hi =>
    hperm.mem_iff.mp (List.mem_flatten.mpr ⟨part, hpart, hi⟩)
  have hnodup : (parts.flatten.map fun i => normal i.batteryId).Nodup :=
    (hperm.map _).nodup_iff.mpr h.nodup
  exact ⟨hne, fun i hi => h.named i (hsub i hi),
    hnodup.sublist ((List.sublist_flatten_of_mem hpart).map _),
    fun i hi => h.statuses i (hsub i hi)⟩

/-! ## The warehouse -/

/-- The warehouse that a request means. -/
def intakeWarehouse (db : Db) (warehouseId : Option ℕ) : Option ℕ :=
  match warehouseId with
  | some k => (getTransferEligibleWarehouse db k).map Warehouse.id
  | none => getSingleActiveWarehouseId db

variable {k : ℕ} {warehouseId : Option ℕ}

omit [Casing] in
theorem resolveIntakeWarehouseId_ok {s t : Session Db} :
    resolveIntakeWarehouseId warehouseId s = (.ok k, t) ↔
      UniqueIndexes s.working ∧ intakeWarehouse s.working warehouseId = some k ∧ s = t := by
  simp only [resolveIntakeWarehouseId, bind_ok, Fleet.Transitions.query_ok]
  rcases warehouseId with _ | k'
  · unfold intakeWarehouse getSingleActiveWarehouseId
    constructor
    · rintro ⟨_, _, ⟨hu, rfl, rfl⟩, h⟩
      rcases hrows : s.working.warehouses.rows.filter Warehouse.isActive with _ | ⟨x, _ | ⟨y, l⟩⟩
      · rw [hrows] at h
        cases h
      · rw [hrows] at h
        obtain ⟨rfl, rfl⟩ := pure_ok.mp h
        exact ⟨hu, rfl, rfl⟩
      · rw [hrows] at h
        cases h
    · rintro ⟨hu, h, rfl⟩
      refine ⟨_, _, ⟨hu, rfl, rfl⟩, ?_⟩
      rcases hrows : s.working.warehouses.rows.filter Warehouse.isActive with _ | ⟨x, _ | ⟨y, l⟩⟩
      · rw [hrows] at h
        cases h
      · rw [hrows] at h
        cases h
        rfl
      · rw [hrows] at h
        cases h
  · unfold intakeWarehouse
    simp only [bind_ok, demand_ok, pure_ok, Option.map_eq_some_iff]
    constructor
    · rintro ⟨_, _, ⟨hu, rfl, rfl⟩, w, _, ⟨hw, rfl⟩, rfl, rfl⟩
      exact ⟨hu, ⟨w, hw, rfl⟩, rfl⟩
    · rintro ⟨hu, ⟨w, hw, rfl⟩, rfl⟩
      exact ⟨_, _, ⟨hu, rfl, rfl⟩, w, _, ⟨hw, rfl⟩, rfl, rfl⟩

omit [Casing] in
theorem intakeWarehouse_congr {db db' : Db} (h : elsewhere db' = elsewhere db) :
    intakeWarehouse db' = intakeWarehouse db := by
  have hsame := (sameChecks_of_elsewhere h).warehouses
  funext x
  unfold intakeWarehouse getTransferEligibleWarehouse getSingleActiveWarehouseId
  rw [hsame]

/-! ## One request -/

variable {c : Caller} {manifestId id : String} {data : ManifestReceiveRequest}

omit [Casing] in
theorem onFleet_readOnly {α : Type} {x : FleetTx α} {s : Store} {a : α}
    (h : x (.fresh s.fleet) = (.ok a, .fresh s.fleet)) :
    onFleet x (.fresh s) = (.ok a, .fresh s) := (onFleet_eq (s := .fresh s) h).trans rfl

structure Receives (id : String) (warehouseId : Option ℕ) (us : List ItemUpdate) (s : Store)
    (k : ℕ) (m : Manifest) : Prop where
  unique : UniqueIndexes s.fleet
  warehouse : intakeWarehouse s.fleet warehouseId = some k
  receivable : Receivable id m s
  admits : AdmitsAll k (elsewhere s.fleet) (slot m.id s) us

theorem normalizeManifestId_ok {raw field id : String}
    (h : normalizeManifestId raw field = .ok id) : id = normal raw := by
  unfold normalizeManifestId at h
  split_ifs at h
  exact (Except.ok.inj h).symm

/-- A request that passes the checks that do not look at its key. -/
theorem receiveManifest_call {s : Store}
    (hid : normalizeManifestId manifestId = .ok (normal manifestId)) (hwell : WellFormed data.items)
    (hu : UniqueIndexes s.fleet)
    (hwarehouse : intakeWarehouse s.fleet data.warehouseId = some k) :
    (receiveManifest c manifestId data).call s =
      (answered c (receivePath (normal manifestId)) (receiveRows c.now c.userId k
        (normal manifestId) (data.items.filterMap updateOf))).call s := by
  obtain ⟨serials, hserials, hupdates⟩ := checked_iff.mpr ⟨hwell, rfl⟩
  have hresolve : resolveIntakeWarehouseId data.warehouseId (.fresh s.fleet) =
      (.ok k, .fresh s.fleet) := resolveIntakeWarehouseId_ok.mpr ⟨hu, hwarehouse, rfl⟩
  unfold call receiveManifest
  rw [lift_bind hid, lift_bind hserials, bind_of_ok (onFleet_readOnly hresolve),
    lift_bind hupdates]

variable {s t : Store}

variable {response : ManifestRead}

theorem receiveManifest_checked
    (h : (receiveManifest c manifestId data).call s = (.ok response, t)) :
    normalizeManifestId manifestId = .ok (normal manifestId) ∧ WellFormed data.items ∧
      UniqueIndexes s.fleet ∧ ∃ k, intakeWarehouse s.fleet data.warehouseId = some k ∧
        (answered c (receivePath (normal manifestId)) (receiveRows c.now c.userId k
          (normal manifestId) (data.items.filterMap updateOf))).call s = (.ok response, t) := by
  obtain ⟨w, hprogram, -⟩ := call_ok h
  obtain ⟨id, _, hlift, hprogram⟩ := bind_ok.mp hprogram
  obtain ⟨hid, rfl⟩ := lift_ok.mp hlift
  obtain rfl := normalizeManifestId_ok hid
  obtain ⟨serials, _, hlift, hprogram⟩ := bind_ok.mp hprogram
  obtain ⟨hserials, rfl⟩ := lift_ok.mp hlift
  obtain ⟨k, _, hwarehouse, hprogram⟩ := bind_ok.mp hprogram
  obtain ⟨fleet, hresolve, rfl⟩ := onFleet_ok hwarehouse
  obtain ⟨hu, hk, rfl⟩ := resolveIntakeWarehouseId_ok.mp hresolve
  obtain ⟨us, _, hlift, -⟩ := bind_ok.mp hprogram
  obtain ⟨hupdates, rfl⟩ := lift_ok.mp hlift
  obtain ⟨hwell, -⟩ := checked_iff.mp ⟨serials, hserials, hupdates⟩
  exact ⟨hid, hwell, hu, k, hk, (receiveManifest_call hid hwell hu hk).symm.trans h⟩

variable {m : Manifest}

theorem receiveRows_of_receives {s : Store} (hserials : Serials us) (hne : us ≠ [])
    (h : Receives id warehouseId us s k m) :
    ∃ response t, receiveRows c.now c.userId k id us (.fresh s) = (.ok response, t) ∧
      ManifestReceived ⟨c.now, c.userId, m.id, k⟩ us m s t.working ∧
      UniqueIndexes t.working.fleet ∧ t.working.storedResponses = s.storedResponses := by
  obtain ⟨response, t, hrun⟩ : ∃ response t,
      receiveRows c.now c.userId k id us (.fresh s) = (.ok response, t) :=
    receiveRows_of_admitsAll hserials h.unique h.receivable h.admits
  obtain ⟨-, m', hreceivable, -, hreceived, hu⟩ := receiveRows_ok hserials hne hrun
  obtain rfl : m' = m := List.singleton_inj.mp (hreceivable.found.symm.trans h.receivable.found)
  exact ⟨response, t, hrun, hreceived, hu, hreceived.rounds.untouched.storedResponses⟩

theorem receiveManifest_ok (hunused : Unused c (receivePath (normal manifestId)) s)
    (h : (receiveManifest c manifestId data).call s = (.ok response, t)) :
    normalizeManifestId manifestId = .ok (normal manifestId) ∧ WellFormed data.items ∧
      ∃ k m, Receives (normal manifestId) data.warehouseId (data.items.filterMap updateOf) s k m ∧
        ∃ t₀, ManifestReceived ⟨c.now, c.userId, m.id, k⟩ (data.items.filterMap updateOf) m s t₀ ∧
          core t = core t₀ := by
  obtain ⟨hid, hwell, hu, k, hk, hanswered⟩ := receiveManifest_checked h
  obtain ⟨t₁, hrun, -, hcore⟩ := answered_unused_ok hunused hu hanswered
  obtain ⟨-, m, hreceivable, hadmits, hreceived, -⟩ :=
    receiveRows_ok hwell.serials hwell.updates_ne_nil hrun
  exact ⟨hid, hwell, k, m, ⟨hu, hk, hreceivable, hadmits⟩, t₁.working, hreceived, hcore⟩

theorem receiveManifest_of {s : Store} (hunused : Unused c (receivePath (normal manifestId)) s)
    (hid : normalizeManifestId manifestId = .ok (normal manifestId)) (hwell : WellFormed data.items)
    (h : Receives (normal manifestId) data.warehouseId (data.items.filterMap updateOf) s k m) :
    ∃ response t t₀, (receiveManifest c manifestId data).call s = (.ok response, t) ∧
      ManifestReceived ⟨c.now, c.userId, m.id, k⟩ (data.items.filterMap updateOf) m s t₀ ∧
      UniqueIndexes t₀.fleet ∧ core t = core t₀ ∧
      ∀ r ∈ t.storedResponses, r ∈ s.storedResponses ∨ r.userId = c.userId ∧
        normalizeIdempotencyKey c.idempotencyKey = .ok (some r.idempotencyKey) ∧
        r.requestPath = receivePath (normal manifestId) := by
  obtain ⟨response, t₁, hrun, hreceived, hu, hkept⟩ :=
    receiveRows_of_receives (c := c) hwell.serials hwell.updates_ne_nil h
  obtain ⟨t, hanswered, hcore, hrows⟩ := answered_of_unused hunused h.unique hrun hu hkept
  have hcall := receiveManifest_call (c := c) hid hwell h.unique h.warehouse
  exact ⟨response, t, t₁.working, hcall.trans hanswered, hreceived, hu, hcore, hrows⟩

/-! ## Requests one after the other -/

/-- The requests, each from where the last one has left the store. -/
def receiveAll (manifestId : String) (warehouseId : Option ℕ) :
    List (Caller × List ManifestItemUpdate) → Store → Option Store
  | [], s => some s
  | (c, items) :: calls, s =>
    match (receiveManifest c manifestId ⟨warehouseId, items⟩).call s with
    | (.ok _, t) => receiveAll manifestId warehouseId calls t
    | (.error _, _) => none

/-- Two callers send the same idempotency key. -/
def SameKey (c c' : Caller) : Prop :=
  c.userId = c'.userId ∧ ∃ key, normalizeIdempotencyKey c.idempotencyKey = .ok (some key) ∧
    normalizeIdempotencyKey c'.idempotencyKey = .ok (some key)

omit [Casing] in
theorem unused_after {c' : Caller} {path : String} (h : Unused c' path s) (hne : ¬ SameKey c c')
    (hrows : ∀ r ∈ t.storedResponses, r ∈ s.storedResponses ∨ r.userId = c.userId ∧
      normalizeIdempotencyKey c.idempotencyKey = .ok (some r.idempotencyKey) ∧
      r.requestPath = path) : Unused c' path t := by
  obtain ⟨key, hkey, hnone⟩ := h
  refine ⟨key, hkey, fun k hk r hr => ?_⟩
  rcases hrows r hr with hr | ⟨huser, hrkey, -⟩
  · exact hnone k hk r hr
  · rw [Bool.eq_false_iff]
    intro hresponse
    obtain ⟨huser', hsame, -⟩ := of_decide_eq_true hresponse
    obtain rfl : key = some k := hk
    exact hne ⟨huser.symm.trans huser', k, hsame ▸ hrkey, hkey⟩

/-- What the updates of accepted requests leave. -/
structure Left (warehouseId : ℕ) (us : List ItemUpdate) (m : Manifest) (s t : Store) : Prop where
  slots : slot m.id t =
    run (apply ItemUpdate.batteryId (slotAfter warehouseId)) (slot m.id s) us
  others : ∀ x, x ≠ m.id → itemsOf t x = itemsOf s x
  manifests : ∃ status, StatusOf (slot m.id t) status ∧
    t.manifests = s.manifests.set { m with status := status.text }

theorem slot_core (h : core t = core s) (x : String) : slot x t = slot x s := by
  obtain ⟨hfleet, -, hitems⟩ := core_eq h
  unfold slot
  rw [hfleet, hitems]

variable {r : Receipt}

theorem left_of_received {s t t₀ : Store}
    (h : ManifestReceived r us m s t₀) (hcore : core t = core t₀) :
    Left r.warehouseId us m s t := by
  obtain ⟨-, hrows, hitems⟩ := core_eq hcore
  obtain ⟨status, hstatus, hmanifests⟩ := h.manifests
  have hslots := h.rounds.slot_eq
  rw [h.id] at hslots hstatus
  refine ⟨?_, fun x hx => ?_, status, ?_, hrows.trans hmanifests⟩
  · rw [slot_core hcore]
    exact hslots
  · have hother := h.rounds.untouched.otherManifests x (by rw [h.id]; exact hx)
    unfold itemsOf at hother ⊢
    rw [hitems]
    exact hother
  · rw [slot_core hcore]
    exact hstatus

theorem Left.trans {us vs : List ItemUpdate} {text : String}
    {s t w : Store} (h : Left k us m s t) (h' : Left k vs { m with status := text } t w) :
    Left k (us ++ vs) m s w := by
  obtain ⟨status, -, hmanifests⟩ := h.manifests
  obtain ⟨status', hstatus, hmanifests'⟩ := h'.manifests
  have hslots := h'.slots
  refine ⟨?_, fun x hx => (h'.others x hx).trans (h.others x hx), status', hstatus, ?_⟩
  · rw [run_append, ← h.slots]
    exact hslots
  · rw [hmanifests', hmanifests]
    exact Table.set_set rfl

/-- The store after an accepted request is ready for the rest of the updates. -/
theorem receives_after [AsciiUpper] {us vs : List ItemUpdate} {s t t₀ : Store}
    (h : Receives id warehouseId (us ++ vs) s r.warehouseId m)
    (hreceived : ManifestReceived r us m s t₀) (hu : UniqueIndexes t₀.fleet)
    (hcore : core t = core t₀) : ∃ status : ManifestStatus,
      Receives id warehouseId vs t r.warehouseId { m with status := status.text } := by
  obtain ⟨status, hstatus, hmanifests⟩ := hreceived.manifests
  obtain ⟨hfleet, hrows, hitems⟩ := core_eq hcore
  have huntouched := hreceived.rounds.untouched
  have helse : elsewhere t.fleet = elsewhere s.fleet := by
    rw [hfleet]
    exact huntouched.fleet
  refine ⟨status, hfleet ▸ hu, ?_, ⟨?_, ?_, ?_⟩, ?_⟩
  · rw [intakeWarehouse_congr helse, h.warehouse]
  · have hset : findManifestsByNormalizedId
        { s with manifests := s.manifests.set { m with status := status.text } } id =
        [{ m with status := status.text }] := findManifests_set h.receivable.found rfl
    unfold findManifestsByNormalizedId at hset ⊢
    rw [hrows, hmanifests]
    exact hset
  · exact ⟨status, normalizeManifestStatus_text status _, hstatus.ne_processed⟩
  · rw [hitems, ← hreceived.id]
    exact hreceived.named
  · have hrest := (along_append.mp h.admits).2
    rw [← (left_of_received hreceived hcore).slots] at hrest
    rw [helse]
    exact hrest

theorem receiveAll_of [AsciiUpper] {calls : List (Caller × List ManifestItemUpdate)} {s : Store}
    (hid : normalizeManifestId manifestId = .ok (normal manifestId))
    (hwell : ∀ x ∈ calls, WellFormed x.2)
    (hunused : ∀ x ∈ calls, Unused x.1 (receivePath (normal manifestId)) s)
    (hkeys : (calls.map Prod.fst).Pairwise fun c c' => ¬ SameKey c c')
    (h : Receives (normal manifestId) warehouseId
      ((calls.map Prod.snd).flatten.filterMap updateOf) s k m) :
    ∃ t, receiveAll manifestId warehouseId calls s = some t ∧
      (calls ≠ [] → Left k ((calls.map Prod.snd).flatten.filterMap updateOf) m s t) := by
  induction calls generalizing s m with
  | nil => exact ⟨s, rfl, fun hne => absurd rfl hne⟩
  | cons x calls ih =>
    obtain ⟨c, items⟩ := x
    rw [List.forall_mem_cons] at hwell hunused
    rw [List.map_cons, List.pairwise_cons] at hkeys
    rw [List.map_cons, List.flatten_cons, List.filterMap_append] at h ⊢
    have hfirst : Receives (normal manifestId) warehouseId (items.filterMap updateOf) s k m :=
      ⟨h.unique, h.warehouse, h.receivable, (along_append.mp h.admits).1⟩
    obtain ⟨response, t, t₀, hcall, hreceived, hu, hcore, hrows⟩ : ∃ response t t₀,
        (receiveManifest c manifestId ⟨warehouseId, items⟩).call s = (.ok response, t) ∧ _ :=
      receiveManifest_of hunused.1 hid hwell.1 hfirst
    obtain ⟨status, hrest⟩ := receives_after h hreceived hu hcore
    have hleft := left_of_received hreceived hcore
    obtain ⟨w, hall, hend⟩ := ih hwell.2
      (fun y hy => unused_after (hunused.2 y hy)
        (hkeys.1 y.1 (List.mem_map_of_mem hy)) hrows) hkeys.2 hrest
    refine ⟨w, ?_, fun _ => ?_⟩
    · rw [receiveAll, hcall]
      exact hall
    · rcases calls with _ | ⟨y, calls⟩
      · obtain rfl := Option.some.inj hall
        rw [List.map_nil, List.flatten_nil, List.filterMap_nil, List.append_nil]
        exact hleft
      · exact hleft.trans (hend (List.cons_ne_nil _ _))

/-! ## The outcome -/

def itemStatus (s : Store) (manifestId serial : String) : Option String :=
  (itemOf s.manifestItems manifestId serial).map ManifestItem.status

omit [Casing] in
def manifestStatus (s : Store) (manifestId : String) : Option String :=
  (s.manifests.get? manifestId).map Manifest.status

def batteryPlaces (s : Store) (serial : String) :
    List (BatteryStatus × Option LocationType × Option ℕ) := (batteriesOf s.fleet serial).map place

/-- The stores agree on items, batteries and manifests. -/
structure SameOutcome (s t : Store) : Prop where
  items : ∀ manifestId serial, itemStatus t manifestId serial = itemStatus s manifestId serial
  batteries : ∀ serial, batteryPlaces t serial = batteryPlaces s serial
  manifests : ∀ manifestId, manifestStatus t manifestId = manifestStatus s manifestId

theorem itemStatus_of_itemsOf {x : String} (h : itemsOf t x = itemsOf s x)
    (serial : String) : itemStatus t x serial = itemStatus s x serial := by
  unfold itemStatus
  rw [← lookup_itemsOf, ← lookup_itemsOf, h]

theorem Left.sameOutcome {us vs : List ItemUpdate} {s t w : Store}
    (h : Left k us m s t) (h' : Left k vs m s w) (hperm : us.Perm vs) (hserials : Serials us) :
    SameOutcome t w := by
  have hslots : slot m.id w = slot m.id t := by
    rw [h.slots, h'.slots, run_perm hperm hserials.nodup]
  obtain ⟨status, hstatus, hmanifests⟩ := h.manifests
  obtain ⟨status', hstatus', hmanifests'⟩ := h'.manifests
  rw [hslots] at hstatus'
  obtain rfl := hstatus.unique hstatus'
  refine ⟨fun x serial => ?_, fun serial => ?_, fun x => ?_⟩
  · by_cases hx : x = m.id
    · rw [hx]
      exact congrArg Slot.item (congrFun hslots serial)
    · exact itemStatus_of_itemsOf ((h'.others x hx).trans (h.others x hx).symm) serial
  · exact congrArg Slot.batteries (congrFun hslots serial)
  · unfold manifestStatus
    rw [hmanifests, hmanifests']

/-- **Partial receipts compose.**  The updates of an accepted request, sent in any order in any
number of requests, are accepted and leave the same. -/
theorem partial_receipts_compose [AsciiUpper] (manifestId : String) (warehouseId : Option ℕ)
    (c : Caller) (items : List ManifestItemUpdate) (s t : Store) (response : ManifestRead)
    (calls : List (Caller × List ManifestItemUpdate))
    (haccepted : (receiveManifest c manifestId ⟨warehouseId, items⟩).call s = (.ok response, t))
    (hperm : (calls.map Prod.snd).flatten.Perm items) (hparts : ∀ x ∈ calls, x.2 ≠ [])
    (hunused : ∀ x ∈ c :: calls.map Prod.fst, Unused x (receivePath (normal manifestId)) s)
    (hkeys : (calls.map Prod.fst).Pairwise fun x y => ¬ SameKey x y) :
    ∃ t', receiveAll manifestId warehouseId calls s = some t' ∧ SameOutcome t t' := by
  rw [List.forall_mem_cons] at hunused
  obtain ⟨hid, hwell, k, m, hreceives, t₀, hreceived, hcore⟩ :=
    receiveManifest_ok hunused.1 haccepted
  have hupdates := (hperm.filterMap updateOf).symm
  have hadmits : AdmitsAll k (elsewhere s.fleet) (slot m.id s)
      ((calls.map Prod.snd).flatten.filterMap updateOf) :=
    (along_perm hupdates hwell.serials.nodup _).mp hreceives.admits
  have hparted : ∀ x ∈ calls, WellFormed x.2 := fun x hx =>
    hwell.part hperm (List.mem_map_of_mem hx) (hparts x hx)
  obtain ⟨t', hall, hleft⟩ := receiveAll_of hid hparted
    (fun x hx => hunused.2 x.1 (List.mem_map_of_mem hx)) hkeys
    ⟨hreceives.unique, hreceives.warehouse, hreceives.receivable, hadmits⟩
  have hcalls : calls ≠ [] := by
    rintro rfl
    exact hwell.nonempty (List.nil_perm.mp hperm)
  exact ⟨t', hall, (left_of_received hreceived hcore).sameOutcome (hleft hcalls) hupdates
    hwell.serials⟩

end

/-! ## A delivery of two batteries -/

def arrivals : List ManifestItem :=
  [{ id := 1, manifestId := "MAN-1", batteryId := "B1", type := "LFP" },
    { id := 2, manifestId := "MAN-1", batteryId := "B2", type := "LFP" }]

def deliveryStore : Store where
  fleet := { warehouses := ⟨[{ id := 3 }], List.nodup_singleton _⟩ }
  manifests := ⟨[{ id := "MAN-1", source := "Plant", date := 2, createdAt := 2 }],
    List.nodup_singleton _⟩
  manifestItems := ⟨arrivals, by decide⟩

def scannedB1 : ManifestItemUpdate where
  batteryId := "b1"
  status := "scanned"

def damagedB2 : ManifestItemUpdate where
  batteryId := "B2"
  status := "Damaged"

/-- What a request about both answers. -/
def deliveryResponse : ManifestRead where
  id := "MAN-1"
  source := "Plant"
  date := 2
  status := "Received"
  createdAt := 2
  items := [⟨1, "B1", "LFP", "scanned"⟩, ⟨2, "B2", "LFP", "damaged"⟩]

theorem unused_of_no_key [Casing] {c : Caller} (h : c.idempotencyKey = none) (path : String)
    (s : Store) : Unused c path s :=
  ⟨none, by rw [h]; rfl, fun k hk => nomatch hk⟩

/-- The damaged battery is received first, by someone else. -/
theorem partial_receipts_compose_sample :
    ∃ t', receiveAll "man-1" none [(⟨7, 1, none, ""⟩, [damagedB2]), (⟨8, 2, none, ""⟩, [scannedB1])]
        deliveryStore = some t' ∧
      SameOutcome ((receiveManifest ⟨5, 1, none, ""⟩ "man-1"
        ⟨none, [scannedB1, damagedB2]⟩).call deliveryStore).2 t' := by
  have haccepted : ((receiveManifest ⟨5, 1, none, ""⟩ "man-1"
      ⟨none, [scannedB1, damagedB2]⟩).call deliveryStore).1 = .ok deliveryResponse := by
    decide +kernel
  refine partial_receipts_compose "man-1" none ⟨5, 1, none, ""⟩ [scannedB1, damagedB2] deliveryStore
    _ deliveryResponse _ (Prod.ext haccepted rfl) (List.Perm.swap _ _ _) ?_ ?_ ?_
  · intro x hx
    rcases List.mem_pair.mp hx with rfl | rfl
    · exact List.cons_ne_nil _ _
    · exact List.cons_ne_nil _ _
  · intro c hc
    refine unused_of_no_key ?_ _ _
    rcases List.mem_cons.mp hc with rfl | hc
    · rfl
    rcases List.mem_pair.mp hc with rfl | rfl
    · rfl
    · rfl
  · rw [List.map_cons, List.map_cons, List.map_nil, List.pairwise_pair]
    exact fun h => absurd h.1 (by decide)

end WezuBackend.Manifests.Composition
