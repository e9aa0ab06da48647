import WezuBackend.Fleet.Acceptance
import WezuBackend.Rental.LateFees

/-!
# Maintenance

`app/services/maintenance_service.py`: a sweep puts the batteries and stations that are due into
maintenance, and a record of a maintenance that was done puts them back into service.

Both write the next date of a schedule at their end.  That reads `schedule.recurrence_rule`, which
the table of the schedules does not have, so that a sweep that finds something due raises before its
commit, and so does a record of an entity that has a schedule (`autoGenerateSchedules_call`,
`recordMaintenance_cases`).
-/

namespace WezuBackend.Maintenance.Service

open Lib.Tables Lib.Atomicity Lib.Atomicity.Tx
open Core.Base Core.Text Core.Letters
open Fleet.Model hiding flush query commitAll
open Fleet.Consistency Fleet.Acceptance
open Fleet.Transitions hiding readOnly_flush readOnly_query flush_ok query_ok
open Rental.Service (day)
open Rental.LateFees (isoformat)

/-! ## Tables -/

inductive EntityType where
  | battery
  | station
  deriving DecidableEq, Repr

def EntityType.text : EntityType → String
  | .battery => "battery"
  | .station => "station"

structure MaintenanceSchedule where
  id : ℕ
  entityType : String
  intervalDays : Option ℤ := none
  intervalCycles : Option ℤ := none
  lastMaintenanceDate : Option ℕ := none
  deriving DecidableEq, Repr

structure MaintenanceRecord where
  id : ℕ
  entityType : EntityType
  entityId : ℕ
  technicianId : ℕ
  maintenanceType : String
  description : String
  /-- in hundredths -/
  cost : ℤ
  partsReplaced : Option String
  status : String := "completed"
  performedAt : ℕ
  deriving DecidableEq, Repr

instance : Row MaintenanceSchedule ℕ := ⟨MaintenanceSchedule.id⟩
instance : Row MaintenanceRecord ℕ := ⟨MaintenanceRecord.id⟩

/-- The columns of a battery that only maintenance looks at. -/
structure BatteryUpkeep where
  cycleCount : ℤ := 0
  lastMaintenanceCycles : ℤ := 0
  lastMaintenanceDate : Option ℕ := none
  createdAt : ℕ := 0

structure StationUpkeep where
  lastMaintenanceDate : Option ℕ := none
  createdAt : ℕ := 0

structure Store where
  fleet : Db := {}
  maintenanceSchedules : Table MaintenanceSchedule := .empty
  maintenanceRecords : Table MaintenanceRecord := .empty
  batteryUpkeep : ℕ → BatteryUpkeep := fun _ => {}
  stationUpkeep : ℕ → StationUpkeep := fun _ => {}

abbrev MaintenanceTx (α : Type) : Type := Tx Exc Store α

def Store.withFleet (fleet : Db) (s : Store) : Store := { s with fleet }

/-- A program on the tables of the fleet. -/
def onFleet {α : Type} (x : FleetTx α) : MaintenanceTx α := focus Store.fleet Store.withFleet x

def flush : MaintenanceTx Unit := do
  let s ← look
  ensure (UniqueIndexes s.fleet) .integrityError

def query : MaintenanceTx Store := do
  flush
  look

def commitAll : MaintenanceTx Unit := do
  flush
  commit

/-! ## Sweeps -/

def validateEntityType (entityType : Option String) : Except Exc EntityType :=
  let normalized := lower (strip (entityType.getD ""))
  let given := entityType.getD "None"
  if normalized = "battery" then .ok .battery
  else if normalized = "station" then .ok .station
  else .error <| .valueError <|
    s!"Unsupported entity_type '{given}'. Allowed: ['battery', 'station']"

/-- `(datetime.utcnow() - last_date).days`. -/
def daysSince (now last : ℕ) : ℤ := ((now : ℤ) - last) / day

/-- `last_date.date()`. -/
def dateText (time : ℕ) : String := String.ofList ((isoformat time).toList.take 10)

def passed (interval : Option ℤ) (value : ℤ) : Bool :=
  match interval with
  | none => false
  | some n => n ≠ 0 ∧ n ≤ value

def dueReason (now : ℕ) (schedule : MaintenanceSchedule) (u : BatteryUpkeep) : Option String :=
  let lastDate := u.lastMaintenanceDate.getD u.createdAt
  if passed schedule.intervalCycles (u.cycleCount - u.lastMaintenanceCycles) then
    some s!"Cycle count threshold reached ({u.cycleCount})"
  else if passed schedule.intervalDays (daysSince now lastDate) then
    some s!"Time threshold reached (Last: {dateText lastDate})"
  else none

/-- `_select_active_schedules`; the table has no column `is_active` either, and falls back to all
schedules. -/
def selectActiveSchedules (entityType : EntityType) (s : Store) : List MaintenanceSchedule :=
  s.maintenanceSchedules.filter fun schedule => schedule.entityType = entityType.text

/-- It reads `schedule.recurrence_rule`. -/
def computeNextDueDate {α : Type} : MaintenanceTx α := raise .attributeError

/-- `last_date` after a round: only the branch that looks at the days binds it. -/
def lastDateAfter (schedule : MaintenanceSchedule) (u : BatteryUpkeep) (lastDate : Option ℕ) :
    Option ℕ :=
  if passed schedule.intervalCycles (u.cycleCount - u.lastMaintenanceCycles) then lastDate
  else if schedule.intervalDays ∈ [none, some 0] then lastDate
  else some (u.lastMaintenanceDate.getD u.createdAt)

/-- The dates of a schedule with something due. -/
def writeDates {α : Type} (schedule : MaintenanceSchedule) (lastDate : Option ℕ) :
    MaintenanceTx α :=
  match schedule.lastMaintenanceDate.or lastDate with
  | none => raise .unboundLocalError
  | some _ => computeNextDueDate

section

variable [Casing]

/-- A round of the batteries' loop, which hands `last_date` on. -/
def sweepBattery (now : ℕ) (schedule : MaintenanceSchedule) (lastDate : Option ℕ)
    (battery : Battery) : MaintenanceTx (Option ℕ) := do
  let s ← look
  let u := s.batteryUpkeep battery.id
  match dueReason now schedule u with
  | none => pure (lastDateAfter schedule u lastDate)
  | some reason => do
    let _ ← onFleet <| applyBatteryTransition now battery
      { eventType := "maintenance_due"
        eventDescription := s!"Auto-flagged for maintenance: {reason}"
        toStatus := some .maintenance }
    writeDates schedule (lastDateAfter schedule u lastDate)

def sweepStation (now : ℕ) (schedule : MaintenanceSchedule) (station : Station) :
    MaintenanceTx Unit := do
  let s ← look
  let u := s.stationUpkeep station.id
  if passed schedule.intervalDays (daysSince now (u.lastMaintenanceDate.getD u.createdAt)) then do
    update fun s =>
      { s with
        fleet := { s.fleet with
          stations := s.fleet.stations.set { station with status := "maintenance" } } }
    computeNextDueDate
  else pure ()

def sweepBatteries (now : ℕ) (lastDate : Option ℕ) (schedule : MaintenanceSchedule) :
    MaintenanceTx (Option ℕ) := do
  let s ← query
  let batteries := s.fleet.batteries.filter fun b => b.status ≠ .maintenance
  batteries.foldlM (sweepBattery now schedule) lastDate

def autoGenerateSchedules (now : ℕ) : MaintenanceTx Unit := do
  let s ← query
  let _ ← (selectActiveSchedules .battery s).foldlM (sweepBatteries now) none
  let s ← query
  let stations := s.fleet.stations.filter fun station => station.status ≠ "maintenance"
  (selectActiveSchedules .station s).forM fun schedule => stations.forM (sweepStation now schedule)
  commitAll

/-! ## Records -/

structure RecordData where
  entityType : Option String
  entityId : Option ℕ
  maintenanceType : String := "preventive"
  description : Option String
  /-- in hundredths -/
  cost : ℤ := 0
  partsReplaced : Option String := none

def maintained (recordId userId : ℕ) : Transition where
  eventType := "maintenance_completed"
  eventDescription := s!"Maintenance record #{recordId} completed by user #{userId}"
  actorId := some userId
  toStatus := some .ready

def recordBattery (now userId : ℕ) (record : MaintenanceRecord) : MaintenanceTx Unit := do
  let s ← query
  let battery ← demand (s.fleet.batteries.get? record.entityId) (.valueError "Battery not found")
  let _ ← onFleet (applyBatteryTransition now battery (maintained record.id userId))
  update fun s =>
    { s with
      batteryUpkeep := fun k =>
        if k = battery.id then
          { s.batteryUpkeep k with
            lastMaintenanceDate := some now
            lastMaintenanceCycles := (s.batteryUpkeep k).cycleCount }
        else s.batteryUpkeep k }

def recordStation (now : ℕ) (record : MaintenanceRecord) : MaintenanceTx Unit := do
  let s ← query
  let station ← demand ((s.fleet.stations.get? record.entityId).filter fun x => !x.isDeleted)
    (.valueError "Station not found")
  update fun s =>
    { s with
      fleet := { s.fleet with
        stations := s.fleet.stations.set { station with status := "active" } }
      stationUpkeep := fun k =>
        if k = station.id then { s.stationUpkeep k with lastMaintenanceDate := some now }
        else s.stationUpkeep k }

def newRecord (now userId : ℕ) (entityType : EntityType) (entityId : ℕ) (data : RecordData)
    (description : String) (id : ℕ) : MaintenanceRecord where
  id := id
  entityType := entityType
  entityId := entityId
  technicianId := userId
  maintenanceType := data.maintenanceType
  description := description
  cost := data.cost
  partsReplaced := data.partsReplaced
  performedAt := now

/-- The schedules' dates, and the commit. -/
def finishRecord (entityType : EntityType) (record : MaintenanceRecord) :
    MaintenanceTx MaintenanceRecord := do
  let s ← query
  match selectActiveSchedules entityType s with
  | [] => do
    commitAll
    return record
  | _ :: _ => computeNextDueDate

/-- What was maintained is put back into service. -/
def restoreEntity (now userId : ℕ) (record : MaintenanceRecord) : MaintenanceTx Unit :=
  match record.entityType with
  | .battery => recordBattery now userId record
  | .station => recordStation now record

/-- The row is flushed before the entity is read. -/
def recordEntity (now userId : ℕ) (entityType : EntityType) (entityId : ℕ) (data : RecordData)
    (description : String) : MaintenanceTx MaintenanceRecord := do
  let s ← look
  let record := newRecord now userId entityType entityId data description
    s.maintenanceRecords.freshKey
  update fun s =>
    { s with
      maintenanceRecords :=
        s.maintenanceRecords.add (newRecord now userId entityType entityId data description) }
  restoreEntity now userId record
  finishRecord entityType record

def recordMaintenance (now userId : ℕ) (data : RecordData) : MaintenanceTx MaintenanceRecord := do
  let entityType ← lift (validateEntityType data.entityType)
  let entityId ← demand data.entityId (.valueError "entity_id is required")
  let description ← demand data.description .integrityError
  recordEntity now userId entityType entityId data description

end

/-! ## Sweeps change nothing -/

theorem readOnly_flush : ReadOnly flush := readOnly_look.bind fun _ => readOnly_ensure _ _

theorem readOnly_query : ReadOnly query := readOnly_flush.bind fun _ => readOnly_look

variable {s t : Session Store} {u : Unit}

theorem flush_ok :
    flush s = (.ok u, t) ↔ UniqueIndexes s.working.fleet ∧ s = t := by
  rw [flush, look_bind, ensure_ok]

theorem query_ok {x : Store} :
    query s = (.ok x, t) ↔ UniqueIndexes s.working.fleet ∧ s.working = x ∧ s = t := by
  rw [query, bind_ok]
  constructor
  · rintro ⟨_, _, hflush, hlook⟩
    obtain ⟨hu, rfl⟩ := flush_ok.mp hflush
    obtain ⟨rfl, rfl⟩ := look_ok.mp hlook
    exact ⟨hu, rfl, rfl⟩
  · rintro ⟨hu, rfl, rfl⟩
    exact ⟨(), s, flush_ok.mpr ⟨hu, rfl⟩, rfl⟩

theorem commitAll_cases (s : Session Store) :
    commitAll s = (.ok (), ⟨s.working, s.working⟩) ∨ ∃ e, commitAll s = (.error e, s) := by
  by_cases hu : UniqueIndexes s.working.fleet
  · have hflush : flush s = (.ok (), s) := flush_ok.mpr ⟨hu, rfl⟩
    exact .inl (bind_of_ok hflush)
  · refine .inr ⟨.integrityError, ?_⟩
    rw [commitAll]
    have hflush : flush s = (.error .integrityError, s) := by
      rw [flush, look_bind, ensure, if_neg hu]
      rfl
    exact bind_of_error hflush

section

variable [Casing]

omit [Casing] in
theorem writeDates_eq {α : Type} (schedule : MaintenanceSchedule) (lastDate : Option ℕ) :
    ∃ e, writeDates schedule lastDate = (raise e : MaintenanceTx α) := by
  unfold writeDates
  cases schedule.lastMaintenanceDate.or lastDate with
  | none => exact ⟨_, rfl⟩
  | some date => exact ⟨_, rfl⟩

theorem quiet_sweepBattery (now : ℕ) (schedule : MaintenanceSchedule) (lastDate : Option ℕ)
    (battery : Battery) : Quiet (sweepBattery now schedule lastDate battery) := by
  refine readOnly_look.quiet.bind fun s => ?_
  dsimp only
  rcases dueReason now schedule (s.batteryUpkeep battery.id) with _ | reason
  · exact (readOnly_pure _).quiet
  · have htransition := tentative_applyBatteryTransition now battery
      { eventType := "maintenance_due"
        eventDescription := s!"Auto-flagged for maintenance: {reason}"
        toStatus := some .maintenance }
    obtain ⟨e, he⟩ := @writeDates_eq (Option ℕ) schedule
      (lastDateAfter schedule (s.batteryUpkeep battery.id) lastDate)
    rw [he]
    exact (tentative_focus (fun _ => rfl) htransition).quiet_raise e

omit [Casing] in
theorem quiet_sweepStation (now : ℕ) (schedule : MaintenanceSchedule) (station : Station) :
    Quiet (sweepStation now schedule station) := by
  refine readOnly_look.quiet.bind fun s => ?_
  dsimp only
  split_ifs
  · exact (tentative_update _).quiet_raise _
  · exact (readOnly_pure ()).quiet

omit [Casing] in
theorem call_commitAll (s : Store) : (commitAll.call s).2 = s := by
  rcases commitAll_cases (.fresh s) with h | ⟨e, h⟩
  · exact congrArg Prod.snd (call_eq h)
  · exact congrArg Prod.snd (call_eq h)

theorem autoGenerateSchedules_call (now : ℕ) (s : Store) :
    ((autoGenerateSchedules now).call s).2 = s := by
  refine readOnly_query.quiet.call_bind fun _ => ?_
  refine Quiet.call_bind ?_ fun _ => ?_
  · refine quiet_foldlM (fun _ schedule => readOnly_query.quiet.bind fun _ => ?_) _ _
    exact quiet_foldlM (quiet_sweepBattery now schedule) _ _
  refine readOnly_query.quiet.call_bind fun _ => ?_
  refine Quiet.call_bind ?_ fun _ => call_commitAll s
  exact quiet_forM (fun schedule => quiet_forM (quiet_sweepStation now schedule) _) _

/-! ## What a record does -/

/-- All that a record asks for that is to put the battery back into service. -/
structure Recordable (now userId : ℕ) (data : RecordData) (s : Store) (battery : Battery) :
    Prop where
  entityType : validateEntityType data.entityType = .ok .battery
  entityId : data.entityId = some battery.id
  described : ∃ text, data.description = some text
  unique : UniqueIndexes s.fleet
  found : battery ∈ s.fleet.batteries
  movable : Transitionable now (maintained s.maintenanceRecords.freshKey userId) battery s.fleet
  unscheduled : selectActiveSchedules .battery s = []

variable {now userId : ℕ}

variable {record : MaintenanceRecord}

theorem recordBattery_ok (h : recordBattery now userId record s = (.ok u, t)) :
    t.committed = s.committed ∧ UniqueIndexes s.working.fleet ∧
      ∃ battery ∈ s.working.fleet.batteries, battery.id = record.entityId ∧
        Transitionable now (maintained record.id userId) battery s.working.fleet ∧
        (∃ a, Transitioned now (maintained record.id userId) battery a s.working.fleet
          t.working.fleet) ∧
        t.working.maintenanceSchedules = s.working.maintenanceSchedules := by
  obtain ⟨x, _, hquery, h⟩ := bind_ok.mp h
  obtain ⟨hu, rfl, rfl⟩ := query_ok.mp hquery
  obtain ⟨battery, _, hdemand, h⟩ := bind_ok.mp h
  obtain ⟨hbattery, rfl⟩ := demand_ok.mp hdemand
  obtain ⟨hmem, hid⟩ := Table.get?_eq_some.mp hbattery
  obtain ⟨b, _, hmove, h⟩ := bind_ok.mp h
  obtain ⟨fleet, htransition, rfl⟩ := focus_ok hmove
  obtain rfl := update_ok.mp h
  obtain ⟨-, hcommitted, a, htransitioned⟩ := applyBatteryTransition_ok htransition
  have hable := applyBatteryTransition_accepts_iff.mp ⟨b, fleet, htransition⟩
  refine ⟨?_, hu, battery, hmem, hid, hable, ⟨a, htransitioned⟩, rfl⟩
  dsimp only at hcommitted ⊢
  rw [hcommitted]
  rfl

omit [Casing] in
theorem recordStation_ok (h : recordStation now record s = (.ok u, t)) :
    t.working.fleet.batteries = s.working.fleet.batteries := by
  obtain ⟨x, _, hquery, h⟩ := bind_ok.mp h
  obtain ⟨hu, rfl, rfl⟩ := query_ok.mp hquery
  obtain ⟨station, _, hdemand, h⟩ := bind_ok.mp h
  obtain ⟨-, rfl⟩ := demand_ok.mp hdemand
  obtain rfl := update_ok.mp h
  rfl

theorem tentative_recordBattery (record : MaintenanceRecord) :
    Tentative (recordBattery now userId record) := by
  refine readOnly_query.tentative.bind fun s =>
    (readOnly_demand _ _).tentative.bind fun battery => ?_
  have htransition := tentative_applyBatteryTransition now battery (maintained record.id userId)
  exact (tentative_focus (fun _ => rfl) htransition).bind fun _ => tentative_update _

omit [Casing] in
theorem tentative_recordStation (record : MaintenanceRecord) :
    Tentative (recordStation now record) :=
  readOnly_query.tentative.bind fun _ => (readOnly_demand _ _).tentative.bind fun _ =>
    tentative_update _

theorem atomic_recordMaintenance (data : RecordData) :
    Atomic (recordMaintenance now userId data) := by
  have hfinish : ∀ (entityType : EntityType) (record : MaintenanceRecord),
      Atomic (finishRecord entityType record) := by
    intro entityType record
    refine atomic_bind readOnly_query.tentative fun s => ?_
    rcases selectActiveSchedules entityType s with _ | ⟨schedule, schedules⟩
    · intro s e t h
      rcases commitAll_cases s with hcommit | ⟨e', hcommit⟩
      · have hend := (bind_of_ok hcommit).symm.trans h
        cases hend
      · have hend := (bind_of_error hcommit).symm.trans h
        obtain ⟨-, rfl⟩ := Prod.mk.inj hend
        rfl
    · exact (readOnly_raise _).tentative.atomic
  refine atomic_bind (readOnly_lift _).tentative fun entityType => ?_
  refine atomic_bind (readOnly_demand _ _).tentative fun entityId => ?_
  refine atomic_bind (readOnly_demand _ _).tentative fun description => ?_
  refine atomic_bind readOnly_look.tentative fun s => atomic_bind (tentative_update _) fun _ => ?_
  refine atomic_bind ?_ fun _ => hfinish entityType _
  rcases entityType
  · exact tentative_recordBattery _
  · exact tentative_recordStation _

variable {entityType : EntityType}

omit [Casing] in
theorem finishRecord_ok {record record' : MaintenanceRecord}
    (h : finishRecord entityType record s = (.ok record', t)) :
    selectActiveSchedules entityType s.working = [] ∧ t.committed = s.working := by
  obtain ⟨x, _, hquery, h⟩ := bind_ok.mp h
  obtain ⟨-, rfl, rfl⟩ := query_ok.mp hquery
  rcases hnone : selectActiveSchedules entityType s.working with _ | ⟨schedule, schedules⟩
  · rw [hnone] at h
    refine ⟨rfl, ?_⟩
    rcases commitAll_cases s with hcommit | ⟨e, hcommit⟩
    · have hend := (bind_of_ok hcommit).symm.trans h
      obtain ⟨-, rfl⟩ := pure_ok.mp hend
      rfl
    · have hend := (bind_of_error hcommit).symm.trans h
      cases hend
  · rw [hnone] at h
    cases h

variable {data : RecordData}

theorem recordMaintenance_ok {s t : Store}
    (h : (recordMaintenance now userId data).call s = (.ok record, t)) :
    (validateEntityType data.entityType = .ok .station ∧ t.fleet.batteries = s.fleet.batteries) ∨
    ∃ battery a, Recordable now userId data s battery ∧
      Transitioned now (maintained s.maintenanceRecords.freshKey userId) battery a s.fleet
        t.fleet := by
  obtain ⟨w, hrun, rfl⟩ := call_ok h
  unfold recordMaintenance at hrun
  obtain ⟨entityType, _, hlift, hrun⟩ := bind_ok.mp hrun
  obtain ⟨hentity, rfl⟩ := lift_ok.mp hlift
  obtain ⟨entityId, _, hdemand, hrun⟩ := bind_ok.mp hrun
  obtain ⟨hid, rfl⟩ := demand_ok.mp hdemand
  obtain ⟨description, _, hdemand, hrun⟩ := bind_ok.mp hrun
  obtain ⟨hdescription, rfl⟩ := demand_ok.mp hdemand
  rw [recordEntity, look_bind, update_bind] at hrun
  obtain ⟨_, s₁, hrecord, hrun⟩ := bind_ok.mp hrun
  rcases entityType
  · obtain ⟨-, hu, battery, hmem, hbid, hable, ⟨a, htransitioned⟩, hschedules⟩ :=
      recordBattery_ok hrecord
    obtain ⟨hnone, hcommitted⟩ := finishRecord_ok hrun
    refine .inr ⟨battery, a, ⟨hentity, ?_, ⟨description, hdescription⟩, hu, hmem, hable, ?_⟩, ?_⟩
    · rw [hid, hbid]
      rfl
    · unfold selectActiveSchedules at hnone ⊢
      rw [hschedules] at hnone
      exact hnone
    · rw [hcommitted]
      exact htransitioned
  · obtain ⟨-, hcommitted⟩ := finishRecord_ok hrun
    rw [hcommitted]
    exact .inl ⟨hentity, recordStation_ok hrecord⟩

omit [Casing] in
theorem finishRecord_of {s : Session Store}
    (hu : UniqueIndexes s.working.fleet) (hnone : selectActiveSchedules entityType s.working = []) :
    finishRecord entityType record s = (.ok record, ⟨s.working, s.working⟩) := by
  have hquery : query s = (.ok s.working, s) := query_ok.mpr ⟨hu, rfl, rfl⟩
  have hflush : flush s = (.ok (), s) := flush_ok.mpr ⟨hu, rfl⟩
  have hcommit : commitAll s = (.ok (), ⟨s.working, s.working⟩) := bind_of_ok hflush
  unfold finishRecord
  rw [bind_of_ok hquery, hnone]
  exact bind_of_ok hcommit

variable {battery : Battery}

theorem recordBattery_of {k : ℕ} {s : Session Store} (hu : UniqueIndexes s.working.fleet)
    (hmem : battery ∈ s.working.fleet.batteries)
    (hid : record.entityId = battery.id) (hk : record.id = k)
    (hable : Transitionable now (maintained k userId) battery s.working.fleet) :
    ∃ t, recordBattery now userId record s = (.ok (), t) ∧ UniqueIndexes t.working.fleet ∧
      t.working.maintenanceSchedules = s.working.maintenanceSchedules := by
  subst hk
  have hquery : query s = (.ok s.working, s) := query_ok.mpr ⟨hu, rfl, rfl⟩
  have hget : s.working.fleet.batteries.get? record.entityId = some battery := by
    rw [hid]
    exact Table.get?_of_mem hmem
  obtain ⟨b, fleet, htransition⟩ := applyBatteryTransition_accepts_iff
    (s := ⟨s.committed.fleet, s.working.fleet⟩).mpr hable
  obtain ⟨-, -, a, htransitioned⟩ := applyBatteryTransition_ok htransition
  have hmove := focus_eq Store.fleet Store.withFleet htransition
  unfold recordBattery
  rw [bind_of_ok hquery, demand_bind hget]
  exact ⟨_, bind_of_ok hmove, uniqueIndexes_of_transitioned htransitioned hable.unique, rfl⟩

theorem recordMaintenance_of {s : Store} (h : Recordable now userId data s battery) :
    ∃ record t, (recordMaintenance now userId data).call s = (.ok record, t) := by
  obtain ⟨text, htext⟩ := h.described
  obtain ⟨record, hrecord⟩ : ∃ record, record = newRecord now userId .battery battery.id data text
      s.maintenanceRecords.freshKey := ⟨_, rfl⟩
  have hid : record.entityId = battery.id := by rw [hrecord]; rfl
  have hkey : record.id = s.maintenanceRecords.freshKey := by rw [hrecord]; rfl
  obtain ⟨written, hwritten⟩ : ∃ written : Store, written = { s with
      maintenanceRecords := s.maintenanceRecords.add
        (newRecord now userId .battery battery.id data text) } := ⟨_, rfl⟩
  have hfleet : written.fleet = s.fleet := by rw [hwritten]
  obtain ⟨t, hrestore, hu, hschedules⟩ := recordBattery_of (s := ⟨s, written⟩)
    (hfleet ▸ h.unique) (hfleet ▸ h.found) hid hkey (hfleet ▸ h.movable)
  have hnone : selectActiveSchedules .battery t.working = [] := by
    have hbefore := h.unscheduled
    unfold selectActiveSchedules at hbefore ⊢
    rw [hschedules, hwritten]
    exact hbefore
  have hentity : recordEntity now userId .battery battery.id data text (.fresh s) =
      finishRecord .battery record t := by
    rw [hrecord, hwritten] at hrestore
    rw [recordEntity, look_bind, update_bind, hrecord]
    exact bind_of_ok hrestore
  have hprogram :
      recordMaintenance now userId data (.fresh s) = finishRecord .battery record t := by
    rw [recordMaintenance, lift_bind h.entityType, demand_bind h.entityId, demand_bind htext]
    exact hentity
  exact ⟨_, _, call_eq (hprogram.trans (finishRecord_of hu hnone))⟩

/-- **A record** puts a battery back into service if it can, and else changes no battery. -/
theorem recordMaintenance_cases (data : RecordData) (s : Store) :
    (∃ battery a, Recordable now userId data s battery ∧
      Transitioned now (maintained s.maintenanceRecords.freshKey userId) battery a s.fleet
        ((recordMaintenance now userId data).call s).2.fleet) ∨
    ((∀ battery, ¬ Recordable now userId data s battery) ∧
      ((recordMaintenance now userId data).call s).2.fleet.batteries = s.fleet.batteries) := by
  rcases hcall : (recordMaintenance now userId data).call s with ⟨e | record, t⟩
  · refine .inr ⟨fun battery hable => ?_, ?_⟩
    · obtain ⟨record, t', hok⟩ := recordMaintenance_of hable
      rw [hok] at hcall
      cases hcall
    · rw [call_error (atomic_recordMaintenance data) hcall]
  · rcases recordMaintenance_ok hcall with ⟨hstation, hsame⟩ | ⟨battery, a, hable, hmoved⟩
    · refine .inr ⟨fun battery hable => ?_, hsame⟩
      have hentity := hable.entityType.symm.trans hstation
      cases hentity
    · exact .inl ⟨battery, a, hable, hmoved⟩

end

end WezuBackend.Maintenance.Service
