import WezuBackend.Fleet.Consistency

/-!
# What a battery transition does

`applyBatteryTransition_ok` is the specification of a transition that returns: what it has checked,
the battery it leaves (`outcome`) and the shelf rows it moves (`Reshelved`).
`applyBatteryTransition_error` says what one that raises may have left in the session: at most
another case and padding of the battery's serial.  The checks only read.
-/

namespace WezuBackend.Fleet.Transitions

open Lib.Tables Lib.Atomicity Lib.Atomicity.Tx Core.Base Core.Letters Fleet.Model Fleet.Consistency

/-! ## The checks only read -/

theorem readOnly_flush : ReadOnly flush := readOnly_look.bind fun _ => readOnly_ensure _ _

theorem readOnly_query : ReadOnly query := readOnly_flush.bind fun _ => readOnly_look

variable {s t : Session Db} {u : Unit}

@[simp] theorem flush_ok :
    flush s = (.ok u, t) ↔ UniqueIndexes s.working ∧ s = t := by
  simp [flush, bind_ok, and_comm]

@[simp] theorem query_ok {db : Db} :
    query s = (.ok db, t) ↔ UniqueIndexes s.working ∧ s.working = db ∧ s = t := by
  simp only [query, bind_ok, flush_ok, look_ok]
  constructor
  · rintro ⟨_, _, ⟨hu, rfl⟩, hdb, rfl⟩
    exact ⟨hu, hdb, rfl⟩
  · rintro ⟨hu, hdb, rfl⟩
    exact ⟨(), s, ⟨hu, rfl⟩, hdb, rfl⟩

theorem commitAll_eq (s : Session Db) :
    commitAll s = if UniqueIndexes s.working then (.ok (), ⟨s.working, s.working⟩)
      else (.error .integrityError, s) := by
  split_ifs with hu
  · exact bind_of_ok (a := ()) (flush_ok.mpr ⟨hu, rfl⟩)
  · refine bind_of_error ?_
    show (look >>= fun db => ensure (UniqueIndexes db) Exc.integrityError) s = _
    rw [look_bind, ensure, if_neg hu]
    rfl

theorem commitAll_pure {α : Type} (a : α) (s : Session Db) :
    (commitAll >>= fun _ => (pure a : FleetTx α)) s =
      if UniqueIndexes s.working then (.ok a, ⟨s.working, s.working⟩)
      else (.error .integrityError, s) := by
  have h := commitAll_eq s
  split_ifs at h ⊢
  · exact bind_of_ok h
  · exact bind_of_error h

/-- `x`, then the commit. -/
def committing {α : Type} (x : FleetTx α) : FleetTx α :=
  x >>= fun a => commitAll >>= fun _ => pure a

theorem committing_of_ok {α : Type} {x : FleetTx α} {a : α}
    (h : x s = (.ok a, t)) : committing x s =
      if UniqueIndexes t.working then (.ok a, ⟨t.working, t.working⟩)
      else (.error .integrityError, t) := by
  rw [committing, bind_of_ok h]
  exact commitAll_pure a t

/-- **A request that commits last**: it has raised and left the store alone, or stored what it has
written. -/
theorem call_committing {α : Type} {x : FleetTx α} (hx : Tentative x) (db : Db) :
    (∃ e, (committing x).call db = (.error e, db)) ∨
      ∃ a t, x (.fresh db) = (.ok a, t) ∧ UniqueIndexes t.working ∧
        (committing x).call db = (.ok a, t.working) := by
  rcases h : x (.fresh db) with ⟨e | a, t⟩
  · have hcommitted : t.committed = db := hx.eq h
    refine .inl ⟨e, ?_⟩
    rw [committing, call_eq (bind_of_error h), hcommitted]
  · have hrest := committing_of_ok h
    by_cases hu : UniqueIndexes t.working
    · rw [if_pos hu] at hrest
      exact .inr ⟨a, t, rfl, hu, call_eq hrest⟩
    · have hcommitted : t.committed = db := hx.eq h
      rw [if_neg hu] at hrest
      refine .inl ⟨.integrityError, ?_⟩
      rw [call_eq hrest, hcommitted]

/-- Such a request is stored once it has written what the unique indexes allow. -/
theorem call_committing_of_ok {α : Type} {x : FleetTx α} {db : Db} {a : α} {t : Session Db}
    (h : x (.fresh db) = (.ok a, t)) (hu : UniqueIndexes t.working) :
    (committing x).call db = (.ok a, t.working) := by
  have hrest := committing_of_ok h
  rw [if_pos hu] at hrest
  exact call_eq hrest

theorem readOnly_assertLocationExists (type : Option LocationType) (k : Option ℕ) (role : String)
    (strict : Bool) : ReadOnly (assertLocationExists type k role strict) := by
  rcases type with _ | type
  · exact readOnly_pure ()
  · refine (readOnly_ensure _ _).bind fun _ => ?_
    split_ifs
    · refine (readOnly_demand _ _).bind fun k => readOnly_query.bind fun db => readOnly_ensure _ _
    · refine (readOnly_demand _ _).bind fun k => readOnly_query.bind fun db => ?_
      refine (readOnly_demand _ _).bind fun station => ?_
      exact (readOnly_ensure _ _).bind fun _ => readOnly_ensure _ _
    · refine (readOnly_demand _ _).bind fun k => readOnly_query.bind fun db => ?_
      exact (readOnly_demand _ _).bind fun shelf => readOnly_ensure _ _
    · exact readOnly_ensure _ _

theorem readOnly_unlessSkipped (skip : Bool) {check : FleetTx Unit} (h : ReadOnly check) :
    ReadOnly (unlessSkipped skip check) := by
  unfold unlessSkipped
  split_ifs
  · exact readOnly_pure ()
  · exact h

section

variable [Casing]

theorem readOnly_assertTransfers (serials : List String) (exclude : Option ℕ) :
    ReadOnly (assertBatteriesNotInActiveTransfers serials exclude) := by
  refine (readOnly_lift _).bind fun normalized => ?_
  split_ifs
  · exact readOnly_pure ()
  · exact readOnly_query.bind fun db => (readOnly_lift _).bind fun _ => readOnly_ensure _ _

theorem readOnly_assertOrders (serials : List String) (exclude : Option String) :
    ReadOnly (assertBatteriesNotInActiveOrders serials exclude) := by
  refine (readOnly_lift _).bind fun normalized => ?_
  split_ifs
  · exact readOnly_pure ()
  · exact readOnly_query.bind fun db => (readOnly_lift _).bind fun _ => readOnly_ensure _ _

theorem readOnly_assertBatteryNotLocked (serial : String) (k : Option ℕ) (o : Option String)
    (skipTransfers skipOrders : Bool) :
    ReadOnly (assertBatteryNotLocked serial k o skipTransfers skipOrders) := by
  refine (readOnly_lift _).bind fun normalized => ?_
  refine (readOnly_unlessSkipped _ (readOnly_assertTransfers _ _)).bind fun _ => ?_
  exact readOnly_unlessSkipped _ (readOnly_assertOrders _ _)

theorem readOnly_getShelfAssignment (serial : String) : ReadOnly (getShelfAssignment serial) :=
  readOnly_query.bind fun _ => (readOnly_ensure _ _).bind fun _ => readOnly_pure _

end

/-! ## Completed checks -/

/-- The place exists, as the checks read it. -/
structure Located (stations : Table Station) (type : LocationType) (locationId : Option ℕ) :
    Prop where
  valid : type ∈ validLocationTypes
  some_id : type ∈ locationTypesRequiringId → ∃ k, locationId = some k ∧ 0 < k
  no_id : type ∈ locationTypesWithoutId → locationId = none
  station : type = .station → ∃ k, locationId = some k ∧
    ∃ station, stations.get? k = some station ∧ ¬ station.isDeleted

theorem assertLocationExists_ok {type : Option LocationType} {k : Option ℕ} {role : String}
    {strict : Bool}
    (h : assertLocationExists type k role strict s = (.ok u, t)) :
    s = t ∧ ∀ x ∈ type, Located s.working.stations x k := by
  have hst := ((readOnly_assertLocationExists type k role strict).eq h).symm
  refine ⟨hst, ?_⟩
  rintro x ⟨⟩
  subst hst
  simp only [assertLocationExists, bind_ok, ensure_ok] at h
  obtain ⟨_, _, ⟨hvalid, rfl⟩, h⟩ := h
  have hwithout : x ∈ locationTypesRequiringId → x ∉ locationTypesWithoutId := by
    simp only [locationTypesRequiringId, locationTypesWithoutId, List.mem_cons, List.not_mem_nil]
    rintro (rfl | rfl | rfl | h) <;> simp_all
  by_cases hreq : x ∈ locationTypesRequiringId
  · simp only [if_pos hreq, bind_ok, demand_ok, query_ok] at h
    obtain ⟨n, _, ⟨hn, rfl⟩, _, _, ⟨-, rfl, rfl⟩, h⟩ := h
    obtain ⟨hk, hpos⟩ := Option.filter_eq_some_iff.mp hn
    refine ⟨hvalid, fun _ => ⟨n, hk, by simpa using hpos⟩, fun hx => absurd hx (hwithout hreq), ?_⟩
    rintro rfl
    simp only [reduceCtorEq, if_false, if_true, bind_ok, demand_ok, ensure_ok] at h
    obtain ⟨station, _, ⟨hs, rfl⟩, _, _, ⟨hd, rfl⟩, -⟩ := h
    exact ⟨n, hk, station, hs, hd⟩
  · simp only [if_neg hreq, ensure_ok] at h
    refine ⟨hvalid, fun hx => absurd hx hreq, h.1, ?_⟩
    rintro rfl
    exact absurd (by decide) hreq

variable {a : Option ShelfBattery} {serial : String}

section

variable [Casing]

theorem getShelfAssignment_ok (h : getShelfAssignment serial s = (.ok a, t)) :
    s = t ∧ UniqueIndexes s.working ∧
      ∀ r, (r ∈ s.working.shelfBatteries ∧ sqlUpper r.batteryId = serial) ↔ a = some r := by
  simp only [getShelfAssignment, bind_ok, query_ok, ensure_ok, pure_ok] at h
  obtain ⟨db, _, ⟨hu, rfl, rfl⟩, _, _, ⟨hlen, rfl⟩, ha, rfl⟩ := h
  refine ⟨rfl, hu, fun r => ?_⟩
  have hmem : (r ∈ s.working.shelfBatteries ∧ sqlUpper r.batteryId = serial) ↔
      r ∈ shelfRows s.working serial := by
    simp [shelfRows, Table.mem_def]
  rw [hmem]
  rcases hrows : shelfRows s.working serial with _ | ⟨x, _ | ⟨y, rows⟩⟩
  · rw [hrows] at ha
    simp [← ha]
  · rw [hrows] at ha
    simp [← ha, eq_comm]
  · rw [hrows] at hlen
    simp at hlen

end

/-! ## Shelf rows -/

def dropped (rows : Table ShelfBattery) (assignment : Option ShelfBattery) : Table ShelfBattery :=
  match assignment with
  | none => rows
  | some row => rows.erase row.id

theorem mem_dropped {rows : Table ShelfBattery} {r : ShelfBattery}
    (ha : ∀ x ∈ a, x ∈ rows) : r ∈ dropped rows a ↔ r ∈ rows ∧ a ≠ some r := by
  rcases a with _ | x
  · simp [dropped]
  · have hx := ha x rfl
    simp only [dropped, Table.mem_erase, key_shelfBattery]
    refine and_congr_right fun hr => not_congr ⟨fun h => ?_, ?_⟩
    · rw [Table.eq_of_key hr hx h]
    · rintro ⟨⟩
      rfl

theorem uniqueIndexes_dropped {db : Db} (h : UniqueIndexes db) (a : Option ShelfBattery) :
    UniqueIndexes { db with shelfBatteries := dropped db.shelfBatteries a } := by
  have hsub : ∀ r ∈ dropped db.shelfBatteries a, r ∈ db.shelfBatteries := by
    rcases a with _ | x
    · exact fun r hr => hr
    · exact fun r hr => (Table.mem_erase.mp hr).1
  exact ⟨h.serials, fun r hr r' hr' => h.shelfBatteries r (hsub r hr) r' (hsub r' hr'),
    h.orderBatteries⟩

/-- What a transition does with the shelf rows: the row it wants is there, or the old row makes way
for a new one on a shelf with room, or the battery leaves the shelves. -/
inductive Reshelved (shelves : Table Shelf) (rows : Table ShelfBattery) (serial : String)
    (a : Option ShelfBattery) : Option LocationType → Option ℕ → Table ShelfBattery → Prop
  | kept {r} (ha : a = some r) :
      Reshelved shelves rows serial a (some .shelf) (some r.shelfId) rows
  | shelved {k shelf} (hs : shelves.get? k = some shelf) (hne : ∀ r ∈ a, r.shelfId ≠ k)
      (hroom : (rows.rows.filter fun r => r.shelfId = k).length < shelf.capacity) :
      Reshelved shelves rows serial a (some .shelf) (some k) ((dropped rows a).add fun id =>
        { id, shelfId := k, batteryId := serial })
  | cleared {type k} (ht : type ≠ some .shelf) :
      Reshelved shelves rows serial a type k (dropped rows a)

/-- Deleting a row keeps the indexes unique, so its flush does not raise. -/
theorem deleteAssignment_eq {s : Session Db} (h : UniqueIndexes s.working)
    (a : Option ShelfBattery) :
    deleteAssignment a s = (.ok (), ⟨s.committed,
      { s.working with shelfBatteries := dropped s.working.shelfBatteries a }⟩) := by
  rcases a with _ | x
  · rfl
  · have hu := uniqueIndexes_dropped h (some x)
    rw [deleteAssignment, update_bind]
    exact flush_ok.mpr ⟨hu, rfl⟩

theorem moveAssignment_ok {type : Option LocationType} {k : Option ℕ} (hu : UniqueIndexes s.working)
    (h : moveAssignment serial a type k s = (.ok u, t)) :
    ∃ rows, Reshelved s.working.shelves s.working.shelfBatteries serial a type k rows ∧
      t = ⟨s.committed, { s.working with shelfBatteries := rows }⟩ := by
  unfold moveAssignment at h
  split_ifs at h with htype
  · subst htype
    simp only [bind_ok, demand_ok, query_ok] at h
    obtain ⟨n, _, ⟨rfl, rfl⟩, _, _, ⟨-, rfl, rfl⟩, shelf, _, ⟨hs, rfl⟩, h⟩ := h
    split_ifs at h with hkept
    · obtain ⟨-, rfl⟩ := pure_ok.mp h
      obtain ⟨r, ha, rfl⟩ := Option.map_eq_some_iff.mp hkept
      exact ⟨_, .kept ha, rfl⟩
    · simp only [bind_ok, ensure_ok, update_ok] at h
      obtain ⟨_, _, ⟨hroom, rfl⟩, _, _, hd, rfl⟩ := h
      rw [deleteAssignment_eq hu] at hd
      obtain ⟨-, rfl⟩ := Prod.mk.inj hd
      refine ⟨_, .shelved hs (fun r hr hk => hkept ?_) hroom, rfl⟩
      rw [hr, Option.map_some, hk]
  · rw [deleteAssignment_eq hu] at h
    obtain ⟨-, rfl⟩ := Prod.mk.inj h
    exact ⟨_, .cleared htype, rfl⟩

theorem moveAssignment_error {type : Option LocationType} {k : Option ℕ} {e : Exc}
    (hu : UniqueIndexes s.working) (h : moveAssignment serial a type k s = (.error e, t)) :
    t = s := by
  unfold moveAssignment at h
  split_ifs at h with htype
  · rcases (readOnly_demand _ _).bind_error h with h | ⟨n, -, h⟩
    · exact h
    rcases readOnly_query.bind_error h with h | ⟨db, -, h⟩
    · exact h
    rcases (readOnly_demand _ _).bind_error h with h | ⟨shelf, -, h⟩
    · exact h
    split_ifs at h with hkept
    · cases h
    rcases (readOnly_ensure _ _).bind_error h with h | ⟨_, -, h⟩
    · exact h
    · rw [bind_of_ok (deleteAssignment_eq hu a)] at h
      cases h
  · rw [deleteAssignment_eq hu] at h
    cases h

/-! ## The transition -/

def targetStatus (args : Transition) (battery : Battery) : BatteryStatus :=
  args.toStatus.getD battery.status

def targetLocationType (args : Transition) (battery : Battery) : Option LocationType :=
  args.toLocationType.or battery.locationType

def targetLocationId (args : Transition) (battery : Battery) : Option ℕ :=
  args.toLocationId.getD battery.locationId

/-- The `location_id` a transition stores. -/
def storedLocationId (args : Transition) (battery : Battery) : Option ℕ :=
  if ∃ type ∈ targetLocationType args battery, type ∈ locationTypesWithoutId then none
  else targetLocationId args battery

variable {b : Battery}

@[simp] theorem saveBattery_ok :
    saveBattery b s = (.ok u, t) ↔
      ⟨s.committed, { s.working with batteries := s.working.batteries.set b }⟩ = t := by
  simp [saveBattery]

theorem storedLocationId_of_requiring {args : Transition} {battery : Battery} {type : LocationType}
    (h : targetLocationType args battery = some type) (hreq : type ∈ locationTypesRequiringId) :
    storedLocationId args battery = targetLocationId args battery := by
  refine if_neg ?_
  rintro ⟨x, hx, hwithout⟩
  rw [h] at hx
  cases hx
  simp only [locationTypesRequiringId, locationTypesWithoutId, List.mem_cons,
    List.not_mem_nil] at hreq hwithout
  rcases hreq with rfl | rfl | rfl | h <;> simp_all

theorem key_placed (now : ℕ) (args : Transition) (status : BatteryStatus)
    (type : Option LocationType) (k : Option ℕ) (b : Battery) :
    (placed now args status type k b).id = b.id := by
  unfold placed
  dsimp only
  split_ifs <;> rfl

section

variable [Casing]

def outcome (now : ℕ) (args : Transition) (battery : Battery) : Battery :=
  placed now args (targetStatus args battery) (targetLocationType args battery)
    (storedLocationId args battery) (renamed now (normal battery.serialNumber) battery)

/-- What a transition that returns has checked in `db`, and how it leaves `db'`. -/
structure Transitioned (now : ℕ) (args : Transition) (battery : Battery)
    (assignment : Option ShelfBattery) (db db' : Db) : Prop where
  named : normal battery.serialNumber ≠ ""
  valid : targetStatus args battery ∈ validBatteryStatuses
  unretired : battery.status = .retired → targetStatus args battery = .retired
  located : ∀ type ∈ targetLocationType args battery,
    Located db.stations type (targetLocationId args battery)
  compatible : targetLocationType args battery = some .transit →
    targetStatus args battery ∈ transitCompatibleStatuses
  assigned : ∀ r, (r ∈ db.shelfBatteries ∧ sqlUpper r.batteryId = normal battery.serialNumber) ↔
    assignment = some r
  reshelved : Reshelved db.shelves db.shelfBatteries (normal battery.serialNumber) assignment
    (targetLocationType args battery) (targetLocationId args battery) db'.shelfBatteries
  batteries : db'.batteries = db.batteries.set (outcome now args battery)
  rest : db' = { db with
    batteries := db'.batteries
    shelfBatteries := db'.shelfBatteries
    batteryLifecycleEvents := db.batteryLifecycleEvents.add fun id =>
      { id, batteryId := battery.id, eventType := args.eventType,
        description := some args.eventDescription, actorId := args.actorId, timestamp := now } }

theorem normalizeBatterySerial_ok {raw field serial : String} :
    normalizeBatterySerial raw field = .ok serial ↔ normal raw ≠ "" ∧ normal raw = serial := by
  unfold normalizeBatterySerial
  split_ifs with h <;> simp [h]

@[simp] theorem outcome_id (now : ℕ) (args : Transition) (b : Battery) :
    (outcome now args b).id = b.id := key_placed _ _ _ _ _ _

variable {now : ℕ} {args : Transition} {battery : Battery}

@[simp] theorem outcome_serialNumber :
    (outcome now args battery).serialNumber = normal battery.serialNumber := by
  unfold outcome placed
  dsimp only
  split_ifs <;> rfl

@[simp] theorem outcome_status :
    (outcome now args battery).status = targetStatus args battery := by
  unfold outcome placed
  dsimp only
  split_ifs <;> rfl

@[simp] theorem outcome_locationType :
    (outcome now args battery).locationType = targetLocationType args battery := by
  unfold outcome placed
  dsimp only
  split_ifs <;> rfl

@[simp] theorem outcome_locationId :
    (outcome now args battery).locationId = storedLocationId args battery := by
  unfold outcome placed
  dsimp only
  split_ifs <;> rfl

theorem outcome_stationId :
    (outcome now args battery).stationId =
      if targetLocationType args battery = some .station then
        (storedLocationId args battery).or battery.stationId
      else none := by
  unfold outcome placed
  dsimp only
  split_ifs <;> rfl

variable {db db' : Db}

theorem Transitioned.mem_batteries (h : Transitioned now args battery a db db')
    (hb : battery ∈ db.batteries) :
    b ∈ db'.batteries ↔ b = outcome now args battery ∨ (b ∈ db.batteries ∧ b.id ≠ battery.id) := by
  rw [h.batteries, Table.mem_set, key_battery, key_battery, outcome_id, or_comm]
  exact or_congr_left (and_iff_left ⟨battery, hb, rfl⟩)

theorem Transitioned.storedLocationId_eq (h : Transitioned now args battery a db db') :
    storedLocationId args battery = targetLocationId args battery := by
  unfold storedLocationId
  split_ifs with hwithout
  · obtain ⟨type, htype, hmem⟩ := hwithout
    exact ((h.located type htype).no_id hmem).symm
  · rfl

theorem Transitioned.outcome_station (h : Transitioned now args battery a db db') :
    (outcome now args battery).stationId =
      if (outcome now args battery).locationType = some .station then
        (outcome now args battery).locationId
      else none := by
  rw [outcome_stationId, outcome_locationType, outcome_locationId, h.storedLocationId_eq]
  by_cases htype : targetLocationType args battery = some .station
  · obtain ⟨k, hk, -⟩ := (h.located .station htype).some_id (by decide)
    rw [if_pos htype, if_pos htype, hk, Option.some_or]
  · rw [if_neg htype, if_neg htype]

/-- The battery `k` is at a place in a status, and no other battery has changed. -/
structure Moved (batteries batteries' : Table Battery) (k : ℕ) (status : BatteryStatus)
    (locationType : LocationType) (locationId : Option ℕ) : Prop where
  others : ∀ b, b.id ≠ k → (b ∈ batteries' ↔ b ∈ batteries)
  placed : ∃ b ∈ batteries', b.id = k ∧ b.status = status ∧ b.locationType = some locationType ∧
    b.locationId = locationId

theorem Transitioned.moved
    (h : Transitioned now args battery a db db') (hb : battery ∈ db.batteries)
    {status : BatteryStatus} {type : LocationType} {k : Option ℕ}
    (hstatus : args.toStatus = some status) (htype : args.toLocationType = some type)
    (hk : args.toLocationId = some k) :
    Moved db.batteries db'.batteries battery.id status type k := by
  refine ⟨fun b hne => ?_, outcome now args battery, (h.mem_batteries hb).mpr (.inl rfl),
    outcome_id _ _ _, ?_, ?_, ?_⟩
  · rw [h.mem_batteries hb]
    constructor
    · rintro (rfl | ⟨hmem, -⟩)
      · exact absurd (outcome_id _ _ _) hne
      · exact hmem
    · exact fun hmem => .inr ⟨hmem, hne⟩
  · rw [outcome_status, targetStatus, hstatus, Option.getD_some]
  · rw [outcome_locationType, targetLocationType, htype, Option.some_or]
  · rw [outcome_locationId, h.storedLocationId_eq, targetLocationId, hk, Option.getD_some]

theorem applyBatteryTransition_ok (h : applyBatteryTransition now battery args s = (.ok b, t)) :
    b = outcome now args battery ∧ t.committed = s.committed ∧
      ∃ a, Transitioned now args battery a s.working t.working := by
  simp only [applyBatteryTransition, bind_ok, lift_ok, saveBattery_ok, ensure_ok] at h
  obtain ⟨serial, _, ⟨hserial, rfl⟩, _, _, rfl, _, _, ⟨hvalid, rfl⟩, _, _, ⟨hret, rfl⟩, h⟩ := h
  obtain ⟨hname, rfl⟩ := normalizeBatterySerial_ok.mp hserial
  obtain ⟨_, _, hloc, _, _, ⟨hcompat, rfl⟩, _, _, hlock, a, _, ha, _, _, hmove, h⟩ := h
  obtain ⟨rfl, hlocated⟩ := assertLocationExists_ok hloc
  obtain rfl := (readOnly_assertBatteryNotLocked _ _ _ _ _).eq hlock
  obtain ⟨rfl, hu, hassign⟩ := getShelfAssignment_ok ha
  obtain ⟨rows, hresh, rfl⟩ := moveAssignment_ok hu hmove
  simp only [addLifecycleEvent, update_ok, pure_ok] at h
  obtain ⟨_, _, rfl, _, _, rfl, rfl, rfl⟩ := h
  have hset : (s.working.batteries.set (renamed now (normal battery.serialNumber) battery)).set
      (outcome now args battery) = s.working.batteries.set (outcome now args battery) :=
    Table.set_set (outcome_id now args battery).symm
  exact ⟨rfl, rfl, a, hname, hvalid, hret, hlocated, hcompat, hassign, hresh, hset,
    by rw [key_placed]; rfl⟩

theorem applyBatteryTransition_error {e : Exc}
    (h : applyBatteryTransition now battery args s = (.error e, t)) :
    t = s ∨ t = ⟨s.committed, { s.working with
      batteries :=
        s.working.batteries.set (renamed now (normal battery.serialNumber) battery) }⟩ := by
  rcases (readOnly_lift _).bind_error h with h | ⟨serial, hserial, h⟩
  · exact .inl h
  obtain ⟨-, rfl⟩ := normalizeBatterySerial_ok.mp (lift_ok.mp hserial).1
  right
  rcases Tx.bind_error.mp h with h | ⟨_, s₁, hs₁, h⟩
  · cases h
  obtain rfl := saveBattery_ok.mp hs₁
  rcases (readOnly_ensure _ _).bind_error h with h | ⟨_, -, h⟩
  · exact h
  rcases (readOnly_ensure _ _).bind_error h with h | ⟨_, -, h⟩
  · exact h
  rcases (readOnly_assertLocationExists _ _ _ _).bind_error h with h | ⟨_, -, h⟩
  · exact h
  rcases (readOnly_ensure _ _).bind_error h with h | ⟨_, -, h⟩
  · exact h
  rcases (readOnly_assertBatteryNotLocked _ _ _ _ _).bind_error h with h | ⟨_, -, h⟩
  · exact h
  rcases (readOnly_getShelfAssignment _).bind_error h with h | ⟨a, ha, h⟩
  · exact h
  obtain ⟨-, hu, -⟩ := getShelfAssignment_ok ha
  rcases Tx.bind_error.mp h with h | ⟨_, s₂, -, h⟩
  · exact moveAssignment_error hu h
  · cases h

theorem tentative_applyBatteryTransition (now : ℕ) (battery : Battery) (args : Transition) :
    Tentative (applyBatteryTransition now battery args) := by
  intro s
  rcases h : applyBatteryTransition now battery args s with ⟨e | b, t⟩
  · rcases applyBatteryTransition_error h with rfl | rfl <;> rfl
  · exact (applyBatteryTransition_ok h).2.1

end

end WezuBackend.Fleet.Transitions
