import WezuBackend.Lib.Loops
import WezuBackend.Maintenance.Service

/-!
# What a sweep does to the batteries

A sweep is meant to put the batteries that are due into maintenance, except those that are retired
or held by an order or a transfer.  Every round that finds something due raises: the transition
refuses the battery, or the dates of the schedule are written, which reads a column that there is
not.  Nothing catches that, so that a sweep does what it is meant to do exactly if there is nothing
to do (`sweep_iff`).
-/

namespace WezuBackend.Maintenance.Sweeps

open Lib.Tables Lib.Atomicity Lib.Atomicity.Tx Lib.Loops Core.Letters Maintenance.Service
open Fleet.Model hiding flush query commitAll
open Fleet.Consistency

/-! ## What is due -/

def BatteryDue (now : ℕ) (s : Store) (battery : Battery) : Prop :=
  ∃ schedule ∈ selectActiveSchedules .battery s,
    (dueReason now schedule (s.batteryUpkeep battery.id)).isSome

def stationPassed (now : ℕ) (schedule : MaintenanceSchedule) (s : Store) (station : Station) :
    Bool :=
  let u := s.stationUpkeep station.id
  passed schedule.intervalDays (daysSince now (u.lastMaintenanceDate.getD u.createdAt))

def StationDue (now : ℕ) (s : Store) (station : Station) : Prop :=
  ∃ schedule ∈ selectActiveSchedules .station s, stationPassed now schedule s station

structure NothingDue (now : ℕ) (s : Store) : Prop where
  batteries : ∀ b ∈ s.fleet.batteries, b.status ≠ .maintenance → ¬ BatteryDue now s b
  stations : ∀ x ∈ s.fleet.stations, x.status ≠ "maintenance" → ¬ StationDue now s x

section

variable [Casing]

/-- No order and no transfer that is under way holds the battery. -/
def Unheld (db : Db) (battery : Battery) : Prop :=
  transferConflicts db [normal battery.serialNumber] none = [] ∧
    orderConflicts db [normal battery.serialNumber] none = []

/-- What a sweep is meant to do. -/
structure Swept (now : ℕ) (s t : Store) : Prop where
  completes : (autoGenerateSchedules now).call s = (.ok (), t)
  moves : ∀ b ∈ s.fleet.batteries, b.status ≠ .maintenance →
    ((∃ b' ∈ t.fleet.batteries, b'.id = b.id ∧ b'.status = .maintenance) ↔
      BatteryDue now s b ∧ b.status ≠ .retired ∧ Unheld s.fleet b)

/-! ## Rounds -/

variable {now : ℕ} {schedule : MaintenanceSchedule} {s t : Session Store}

theorem sweepBattery_ok {lastDate : Option ℕ} {battery : Battery} :
    (∃ after, sweepBattery now schedule lastDate battery s = (.ok after, t)) ↔
      dueReason now schedule (s.working.batteryUpkeep battery.id) = none ∧ s = t := by
  rw [sweepBattery, look_bind]
  rcases dueReason now schedule (s.working.batteryUpkeep battery.id) with _ | reason
  · exact ⟨fun ⟨_, h⟩ => ⟨rfl, (pure_ok.mp h).2⟩, fun h => ⟨_, pure_ok.mpr ⟨rfl, h.2⟩⟩⟩
  · refine iff_of_false ?_ (fun h => nomatch h.1)
    rintro ⟨_, h⟩
    obtain ⟨_, _, -, hdates⟩ := bind_ok.mp h
    obtain ⟨e, he⟩ := @writeDates_eq (Option ℕ) schedule
      (lastDateAfter schedule (s.working.batteryUpkeep battery.id) lastDate)
    rw [he] at hdates
    cases hdates

omit [Casing] in
theorem sweepStation_ok {station : Station} :
    sweepStation now schedule station s = (.ok (), t) ↔
      stationPassed now schedule s.working station = false ∧ s = t := by
  rw [sweepStation, look_bind, stationPassed]
  dsimp only
  split_ifs with hdue
  · refine iff_of_false (fun h => ?_) (fun h => nomatch hdue.symm.trans h.1)
    obtain ⟨_, _, -, hraise⟩ := bind_ok.mp h
    cases hraise
  · exact pure_ok.trans (and_congr_left' (iff_of_true rfl (eq_false_of_ne_true hdue)))

omit [Casing] in
theorem sweepStations_ok {stations : List Station} :
    stations.forM (sweepStation now schedule) s = (.ok (), t) ↔
      (∀ x ∈ stations, stationPassed now schedule s.working x = false) ∧ s = t :=
  @forM_checks_iff _ _ _ (sweepStation now schedule) stations
    (fun x y => stationPassed now schedule y x = false) (fun _ {_ _} => sweepStation_ok) s t

theorem sweepBatteries_ok {lastDate : Option ℕ} :
    (∃ after, sweepBatteries now lastDate schedule s = (.ok after, t)) ↔
      (UniqueIndexes s.working.fleet ∧ ∀ b ∈ s.working.fleet.batteries, b.status ≠ .maintenance →
        dueReason now schedule (s.working.batteryUpkeep b.id) = none) ∧ s = t := by
  have hloop := @foldlM_checks_iff _ _ _
    (s.working.fleet.batteries.filter fun b => b.status ≠ .maintenance) _
    (sweepBattery now schedule)
    (fun b x => dueReason now schedule (x.batteryUpkeep b.id) = none)
    (fun _ _ {_ _} => sweepBattery_ok) lastDate s t
  simp only [Table.mem_filter, decide_eq_true_eq, and_imp] at hloop
  rw [and_assoc, ← hloop]
  constructor
  · rintro ⟨after, h⟩
    obtain ⟨_, _, hquery, hrest⟩ := bind_ok.mp h
    obtain ⟨hu, rfl, rfl⟩ := query_ok.mp hquery
    exact ⟨hu, after, hrest⟩
  · rintro ⟨hu, after, hrest⟩
    exact ⟨after, bind_ok.mpr ⟨_, _, query_ok.mpr ⟨hu, rfl, rfl⟩, hrest⟩⟩

theorem completes_iff (now : ℕ) (s : Store) (hu : UniqueIndexes s.fleet) :
    (∃ t, (autoGenerateSchedules now).call s = (.ok (), t)) ↔ NothingDue now s := by
  have hquery : query (.fresh s) = (.ok s, .fresh s) := query_ok.mpr ⟨hu, rfl, rfl⟩
  have hflush : flush (.fresh s) = (.ok (), .fresh s) := flush_ok.mpr ⟨hu, rfl⟩
  have hcommit : commitAll (.fresh s) = (.ok (), .fresh s) := bind_of_ok hflush
  have hbatteries := fun t => @foldlM_checks_iff _ _ _ (selectActiveSchedules .battery s) _
    (sweepBatteries now)
    (fun schedule x => UniqueIndexes x.fleet ∧ ∀ b ∈ x.fleet.batteries, b.status ≠ .maintenance →
      dueReason now schedule (x.batteryUpkeep b.id) = none)
    (fun _ _ {_ _} => sweepBatteries_ok) none (.fresh s) t
  have hstations := fun t => @forM_checks_iff _ _ _
    (fun schedule => (s.fleet.stations.filter fun x => x.status ≠ "maintenance").forM
      (sweepStation now schedule)) (selectActiveSchedules .station s)
    (fun schedule y => ∀ x ∈ s.fleet.stations.filter fun x => x.status ≠ "maintenance",
      stationPassed now schedule y x = false) (fun _ {_ _} => sweepStations_ok) (.fresh s) t
  simp only [Session.working_fresh] at hbatteries
  simp only [Session.working_fresh, Table.mem_filter, decide_eq_true_eq, and_imp] at hstations
  constructor
  · rintro ⟨t, hcall⟩
    obtain ⟨w, hrun, -⟩ := call_ok hcall
    rw [autoGenerateSchedules, bind_of_ok hquery] at hrun
    obtain ⟨_, _, hfirst, hrun⟩ := bind_ok.mp hrun
    obtain ⟨hnone, rfl⟩ := (hbatteries _).mp ⟨_, hfirst⟩
    rw [bind_of_ok hquery] at hrun
    obtain ⟨_, _, hsecond, -⟩ := bind_ok.mp hrun
    obtain ⟨hnone', rfl⟩ := (hstations _).mp hsecond
    constructor
    · rintro b hb hstatus ⟨schedule, hschedule, hdue⟩
      rw [(hnone schedule hschedule).2 b hb hstatus] at hdue
      cases hdue
    · rintro x hx hstatus ⟨schedule, hschedule, hdue⟩
      rw [hnone' schedule hschedule x hx hstatus] at hdue
      cases hdue
  · rintro ⟨hnone, hnone'⟩
    obtain ⟨_, hfirst⟩ := (hbatteries _).mpr ⟨fun schedule hschedule => ⟨hu, fun b hb hstatus =>
      Option.not_isSome_iff_eq_none.mp fun hdue =>
        hnone b hb hstatus ⟨schedule, hschedule, hdue⟩⟩, rfl⟩
    have hsecond := (hstations _).mpr ⟨fun schedule hschedule x hx hstatus =>
      eq_false_of_ne_true fun hdue => hnone' x hx hstatus ⟨schedule, hschedule, hdue⟩, rfl⟩
    refine ⟨s, call_eq (t := .fresh s) ?_⟩
    rw [autoGenerateSchedules, bind_of_ok hquery, bind_of_ok hfirst, bind_of_ok hquery]
    exact bind_of_ok hsecond ▸ hcommit

/-- **A sweep** does what it is meant to do exactly if nothing is due. -/
theorem sweep_iff (now : ℕ) (s : Store) (hu : UniqueIndexes s.fleet) :
    (∃ t, Swept now s t) ↔ NothingDue now s := by
  constructor
  · rintro ⟨t, h⟩
    exact (completes_iff now s hu).mp ⟨t, h.completes⟩
  · intro h
    obtain ⟨t, hcall⟩ := (completes_iff now s hu).mpr h
    have hsame : t = s := by rw [← autoGenerateSchedules_call now s, hcall]
    refine ⟨t, hcall, fun b hb hstatus => ?_⟩
    rw [hsame]
    refine iff_of_false ?_ fun hdue => h.batteries b hb hstatus hdue.1
    rintro ⟨b', hb', hid, hmaintenance⟩
    rw [Table.eq_of_key hb' hb hid] at hmaintenance
    exact hstatus hmaintenance

end

/-! ## Two stores -/

/-- A battery at a customer's. -/
def used : Battery :=
  { id := 1, serialNumber := "B-1", status := .deployed, locationType := some .customer }

/-- The battery after some cycles, where a schedule asks for maintenance every 500. -/
def cycled (cycleCount : ℤ) : Store where
  fleet := { batteries := ⟨[used], by decide⟩ }
  maintenanceSchedules := ⟨[{ id := 1, entityType := "battery", intervalCycles := some 500 }],
    by decide⟩
  batteryUpkeep := fun _ => { cycleCount }

theorem uniqueIndexes_cycled (cycleCount : ℤ) : UniqueIndexes (cycled cycleCount).fleet := by
  change UniqueIndexes (cycled 0).fleet
  decide

/-- Long before its maintenance the battery is left alone. -/
theorem sweep_iff_sample : ∃ t, Swept 0 (cycled 20) t := by
  refine (sweep_iff 0 (cycled 20) (uniqueIndexes_cycled 20)).mpr ⟨?_, nofun⟩
  rintro b hb - ⟨schedule, hschedule, hdue⟩
  obtain rfl := List.mem_singleton.mp hb
  obtain rfl := List.mem_singleton.mp (Table.mem_filter.mp hschedule).1
  exact absurd hdue (by decide)

/-- When its maintenance is due the sweep raises, and the battery stays where it is. -/
theorem due_battery_raises :
    BatteryDue 0 (cycled 600) used ∧ ¬ ∃ t, Swept 0 (cycled 600) t := by
  have hdue : BatteryDue 0 (cycled 600) used := ⟨_, List.mem_singleton_self _, rfl⟩
  refine ⟨hdue, ?_⟩
  rintro ⟨t, h⟩
  exact ((completes_iff 0 (cycled 600) (uniqueIndexes_cycled 600)).mp ⟨t, h.completes⟩).batteries _
    (List.mem_singleton_self _) (by decide) hdue

end WezuBackend.Maintenance.Sweeps
