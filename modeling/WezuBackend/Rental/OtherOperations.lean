import WezuBackend.Maintenance.Service
import WezuBackend.Manifests.Acceptance
import WezuBackend.Rental.Exclusivity

/-!
# Other operations on the battery of a rental

Rentals share the table of the batteries with the receipts of manifests, with maintenance and with
the dealer portal.  `MovesTo` says where such an operation puts a battery, if it puts it anywhere
(`step_battery`).  None of them asks whether the battery is rented: the status and the place of the
battery of a live rental stay as they are exactly as long as no operation puts it elsewhere
(`rented_batteries_left_alone`).
-/

namespace WezuBackend.Rental.OtherOperations

open Lib.Tables Lib.RowMaps
open Lib.Runs
open Core.Letters Fleet.Model
open Fleet.Consistency Fleet.Transitions
open Rental.Service
open Rental.Exclusivity (Call)
open Manifests.Service (Manifest ManifestItem StoredResponse)
open Manifests.Intake (place)
open Manifests.Acceptance (Takes receive_place)
open Inventory.Service (BatteryTransfer InventoryAuditLog mappedStatus
  inDealerStations updateBatteryStatus bulkUpdateStatus)
open Inventory.Operations (bulkWritten updateBatteryStatus_rewrites
  bulkUpdateStatus_rewrites)
open Maintenance.Service (MaintenanceSchedule MaintenanceRecord BatteryUpkeep
  StationUpkeep RecordData Recordable maintained autoGenerateSchedules recordMaintenance
  autoGenerateSchedules_call recordMaintenance_cases)

/-! ## The tables -/

structure World where
  fleet : Db := {}
  manifests : Table Manifest := .empty
  manifestItems : Table ManifestItem := .empty
  storedResponses : Table StoredResponse := .empty
  batteryTransfers : Table BatteryTransfer := .empty
  inventoryAuditLogs : Table InventoryAuditLog := .empty
  dealerOf : ℕ → Option ℕ := fun _ => none
  maintenanceSchedules : Table MaintenanceSchedule := .empty
  maintenanceRecords : Table MaintenanceRecord := .empty
  batteryUpkeep : ℕ → BatteryUpkeep := fun _ => {}
  stationUpkeep : ℕ → StationUpkeep := fun _ => {}

namespace World

variable (w : World)

/-- The tables that requests about manifests see. -/
def manifestStore : Manifests.Service.Store where
  fleet := w.fleet
  manifests := w.manifests
  manifestItems := w.manifestItems
  storedResponses := w.storedResponses

def withManifestStore (s : Manifests.Service.Store) : World :=
  { w with
    fleet := s.fleet
    manifests := s.manifests
    manifestItems := s.manifestItems
    storedResponses := s.storedResponses }

/-- The tables that the dealer portal sees. -/
def inventoryStore : Inventory.Service.Store where
  fleet := w.fleet
  batteryTransfers := w.batteryTransfers
  inventoryAuditLogs := w.inventoryAuditLogs
  dealerOf := w.dealerOf

def withInventoryStore (s : Inventory.Service.Store) : World :=
  { w with
    fleet := s.fleet
    batteryTransfers := s.batteryTransfers
    inventoryAuditLogs := s.inventoryAuditLogs
    dealerOf := s.dealerOf }

/-- The tables that maintenance sees. -/
def maintenanceStore : Maintenance.Service.Store where
  fleet := w.fleet
  maintenanceSchedules := w.maintenanceSchedules
  maintenanceRecords := w.maintenanceRecords
  batteryUpkeep := w.batteryUpkeep
  stationUpkeep := w.stationUpkeep

def withMaintenanceStore (s : Maintenance.Service.Store) : World :=
  { w with
    fleet := s.fleet
    maintenanceSchedules := s.maintenanceSchedules
    maintenanceRecords := s.maintenanceRecords
    batteryUpkeep := s.batteryUpkeep
    stationUpkeep := s.stationUpkeep }

@[simp] theorem withInventoryStore_fleet (s : Inventory.Service.Store) :
    (w.withInventoryStore s).fleet = s.fleet := rfl

@[simp] theorem withMaintenanceStore_fleet (s : Maintenance.Service.Store) :
    (w.withMaintenanceStore s).fleet = s.fleet := rfl

@[simp] theorem maintenanceStore_fleet : w.maintenanceStore.fleet = w.fleet := rfl

end World

/-! ## The operations -/

inductive Op where
  | rental (c : Call)
  | manifest (o : Manifests.Steps.Op)
  | autoGenerateSchedules (now : ℕ)
  | recordMaintenance (now userId : ℕ) (data : RecordData)
  | updateBatteryStatus (now dealerId batteryId : ℕ) (newStatus : String) (reason : Option String)
      (userId : Option ℕ)
  | bulkUpdateStatus (now dealerId : ℕ) (batteryIds : List ℕ) (newStatus : String)
      (reason : Option String) (userId : Option ℕ)
  /-- schedules are edited, cycles are counted -/
  | upkeep (maintenanceSchedules : Table MaintenanceSchedule) (batteryUpkeep : ℕ → BatteryUpkeep)
      (stationUpkeep : ℕ → StationUpkeep)

def Op.isRental : Op → Bool
  | .rental _ => true
  | _ => false

section

variable [Casing]

def step (w : World) : Op → World
  | .rental c => { w with fleet := Exclusivity.step w.fleet c }
  | .manifest o => w.withManifestStore (Manifests.Steps.step w.manifestStore o)
  | .autoGenerateSchedules now =>
    w.withMaintenanceStore ((autoGenerateSchedules now).call w.maintenanceStore).2
  | .recordMaintenance now userId data =>
    w.withMaintenanceStore ((recordMaintenance now userId data).call w.maintenanceStore).2
  | .updateBatteryStatus now dealerId batteryId newStatus reason userId =>
    w.withInventoryStore
      ((updateBatteryStatus now dealerId batteryId newStatus reason userId).call
        w.inventoryStore).2
  | .bulkUpdateStatus now dealerId batteryIds newStatus reason userId =>
    w.withInventoryStore
      ((bulkUpdateStatus now dealerId batteryIds newStatus reason userId).call
        w.inventoryStore).2
  | .upkeep maintenanceSchedules batteryUpkeep stationUpkeep =>
    { w with maintenanceSchedules, batteryUpkeep, stationUpkeep }

/-! ## Where an operation puts a battery -/

abbrev Place : Type := BatteryStatus × Option LocationType × Option ℕ

/-- The place of a battery that has been maintained: where it was, but without the id of a customer
or a transit. -/
def maintainedPlace (b : Battery) : Place :=
  (.ready, b.locationType,
    if ∃ type ∈ b.locationType, type ∈ locationTypesWithoutId then none else b.locationId)

omit [Casing] in
theorem storedLocationId_maintained (recordId userId : ℕ) (b : Battery) :
    storedLocationId (maintained recordId userId) b =
      if ∃ type ∈ b.locationType, type ∈ locationTypesWithoutId then none else b.locationId := rfl

theorem place_maintained (now recordId userId : ℕ) (b : Battery) :
    place (outcome now (maintained recordId userId) b) = maintainedPlace b := by
  unfold place maintainedPlace
  rw [outcome_status, outcome_locationType, outcome_locationId, storedLocationId_maintained]
  rfl

def DealerWrites (w : World) (dealerId : ℕ) (batteryIds : List ℕ) (newStatus : String)
    (b : Battery) (p : Place) : Prop :=
  ∃ status, mappedStatus newStatus = some status ∧
    (b.id ∈ batteryIds ∧ inDealerStations w.inventoryStore dealerId b.stationId = true) ∧
    p = (status, b.locationType, b.locationId)

/-- The operation puts the battery there. -/
def MovesTo (w : World) (b : Battery) (p : Place) : Op → Prop
  | .rental _ => False
  | .manifest (.create _ _) => False
  | .manifest (.receive c manifestId data) => Takes c manifestId data w.manifestStore b p
  | .manifest (.process _ _) => False
  | .autoGenerateSchedules _ => False
  | .recordMaintenance now userId data =>
    Recordable now userId data w.maintenanceStore b ∧ p = maintainedPlace b
  | .updateBatteryStatus _ dealerId batteryId newStatus _ _ =>
    DealerWrites w dealerId [batteryId] newStatus b p
  | .bulkUpdateStatus _ dealerId batteryIds newStatus _ _ =>
    DealerWrites w dealerId batteryIds newStatus b p
  | .upkeep _ _ _ => False

/-! ## What an operation does to a battery -/

/-- A battery is where the operation puts it, or it is where it was. -/
def Follows (w w' : World) (o : Op) (b : Battery) : Prop :=
  ∃ b' ∈ w'.fleet.batteries, b'.id = b.id ∧ (∀ p, MovesTo w b p o → place b' = p) ∧
    ((∀ p, ¬ MovesTo w b p o) → place b' = place b)

variable {w w' : World} {b : Battery}

variable {o : Op}

/-- An operation that puts the battery nowhere, and leaves its row. -/
theorem follows_of_same (hb : b ∈ w.fleet.batteries)
    (hsame : w'.fleet.batteries = w.fleet.batteries) (hnone : ∀ p, ¬ MovesTo w b p o) :
    Follows w w' o b := by
  refine ⟨b, ?_, rfl, fun p hp => absurd hp (hnone p), fun _ => rfl⟩
  rw [hsame]
  exact hb

theorem follows_manifest (o : Manifests.Steps.Op) (hb : b ∈ w.fleet.batteries) :
    Follows w (step w (.manifest o)) (.manifest o) b := by
  rcases o with ⟨c, data⟩ | ⟨c, manifestId, data⟩ | ⟨c, manifestId⟩
  · refine follows_of_same hb ?_ fun p => not_false
    rcases Manifests.Steps.step_cases w.manifestStore (.create c data) with ⟨-, hcore⟩ | ⟨-, hdone⟩
    · exact congrArg Db.batteries (Manifests.Requests.core_eq hcore).1
    · cases hdone with
      | created _ _ _ h => exact congrArg Db.batteries h.fleet
  · exact receive_place c manifestId data hb
  · refine follows_of_same hb ?_ fun p => not_false
    rcases Manifests.Steps.step_cases w.manifestStore (.process c manifestId) with
      ⟨-, hcore⟩ | ⟨-, hdone⟩
    · exact congrArg Db.batteries (Manifests.Requests.core_eq hcore).1
    · cases hdone with
      | processed h ht =>
        obtain ⟨m, -, -, rfl⟩ := h.found
        exact congrArg Db.batteries (Manifests.Requests.core_eq ht).1

theorem step_recordMaintenance (w : World) (now userId : ℕ) (data : RecordData) :
    (step w (.recordMaintenance now userId data)).fleet =
      ((recordMaintenance now userId data).call w.maintenanceStore).2.fleet := by
  rw [step, World.withMaintenanceStore_fleet]

theorem follows_recordMaintenance (now userId : ℕ) (data : RecordData)
    (hb : b ∈ w.fleet.batteries) :
    Follows w (step w (.recordMaintenance now userId data)) (.recordMaintenance now userId data)
      b := by
  rcases @recordMaintenance_cases _ now userId data w.maintenanceStore with
    ⟨battery, a, hable, hmoved⟩ | ⟨hnone, hsame⟩
  · have hfound : battery ∈ w.fleet.batteries := hable.found
    have hbatteries : (step w (.recordMaintenance now userId data)).fleet.batteries =
        w.fleet.batteries.set
          (outcome now (maintained w.maintenanceRecords.freshKey userId) battery) := by
      rw [step_recordMaintenance, hmoved.batteries]
      rfl
    clear hmoved
    generalize step w (.recordMaintenance now userId data) = w' at hbatteries ⊢
    by_cases hid : b.id = battery.id
    · obtain rfl : b = battery := Table.eq_of_key hb hfound hid
      refine ⟨_, ?_, outcome_id now (maintained w.maintenanceRecords.freshKey userId) b, ?_, ?_⟩
      · rw [hbatteries]
        exact Table.mem_set.mpr (.inr ⟨rfl, b, hb, (outcome_id _ _ _).symm⟩)
      · rintro p ⟨-, rfl⟩
        exact place_maintained _ _ _ _
      · exact fun hnone => absurd ⟨hable, rfl⟩ (hnone (maintainedPlace b))
    · refine ⟨b, ?_, rfl, ?_, fun _ => rfl⟩
      · rw [hbatteries]
        refine Table.mem_set.mpr (.inl ⟨hb, fun hkey => hid ?_⟩)
        exact hkey.trans (outcome_id _ _ _)
      · rintro p ⟨hable', -⟩
        have hsame := hable'.entityId.symm.trans hable.entityId
        exact absurd (Option.some.inj hsame) hid
  · refine follows_of_same hb ?_ fun p hp => hnone b hp.1
    rw [step_recordMaintenance, hsame, World.maintenanceStore_fleet]

omit [Casing] in
theorem place_bulkWritten {now : ℕ} {atDealer : Option ℕ → Bool} {ids : List ℕ}
    {status : BatteryStatus} :
    place (bulkWritten now atDealer ids status b) =
      if b.id ∈ ids ∧ atDealer b.stationId = true then (status, b.locationType, b.locationId)
      else place b := by
  unfold bulkWritten place
  split_ifs <;> rfl

theorem follows_dealer (now : ℕ) {dealerId : ℕ} {batteryIds : List ℕ} {newStatus : String}
    (hb : b ∈ w.fleet.batteries)
    (hrewrites : Rewrites w.fleet.batteries w'.fleet.batteries
      (match mappedStatus newStatus with
        | none => id
        | some status =>
          bulkWritten now (inDealerStations w.inventoryStore dealerId) batteryIds status))
    (hmoves : ∀ p, MovesTo w b p o ↔ DealerWrites w dealerId batteryIds newStatus b p) :
    Follows w w' o b := by
  refine ⟨_, hrewrites.mem_iff.mpr ⟨b, hb, rfl⟩, hrewrites.key_eq hb, fun p hp => ?_,
    fun hnone => ?_⟩
  · obtain ⟨status, hstatus, hwritten, rfl⟩ := (hmoves p).mp hp
    rw [hstatus]
    exact place_bulkWritten.trans (if_pos hwritten)
  · rcases hstatus : mappedStatus newStatus with _ | status
    · rfl
    · refine place_bulkWritten.trans (if_neg fun hwritten => ?_)
      exact hnone _ ((hmoves _).mpr ⟨status, hstatus, hwritten, rfl⟩)

theorem step_battery (ho : o.isRental = false) (hb : b ∈ w.fleet.batteries) :
    Follows w (step w o) o b := by
  cases o with
  | rental c => cases ho
  | manifest o => exact follows_manifest o hb
  | autoGenerateSchedules now =>
    refine follows_of_same hb ?_ fun p => not_false
    rw [step, World.withMaintenanceStore_fleet, autoGenerateSchedules_call,
      World.maintenanceStore_fleet]
  | recordMaintenance now userId data => exact follows_recordMaintenance now userId data hb
  | updateBatteryStatus now dealerId batteryId newStatus reason userId =>
    refine follows_dealer now hb ?_ fun p => Iff.rfl
    rw [step, World.withInventoryStore_fleet]
    exact updateBatteryStatus_rewrites now dealerId batteryId newStatus reason userId
      w.inventoryStore
  | bulkUpdateStatus now dealerId batteryIds newStatus reason userId =>
    refine follows_dealer now hb ?_ fun p => Iff.rfl
    rw [step, World.withInventoryStore_fleet]
    exact bulkUpdateStatus_rewrites now dealerId batteryIds newStatus reason userId
      w.inventoryStore
  | upkeep schedules batteryUpkeep stationUpkeep => exact follows_of_same hb rfl fun p => not_false

/-! ## Runs -/

def Rented (w : World) (b : Battery) : Prop :=
  b ∈ w.fleet.batteries ∧ ∃ r ∈ w.fleet.rentals, isLive r ∧ r.batteryId = b.id

/-- An operation other than a rental's leaves the status and the place of every rented battery. -/
def LeavesRented (w : World) (o : Op) : Prop :=
  o.isRental = false → ∀ b, Rented w b →
    ∃ b' ∈ (step w o).fleet.batteries, b'.id = b.id ∧ place b' = place b

/-- The operation puts no rented battery elsewhere. -/
def SparesRented (w : World) (o : Op) : Prop :=
  ∀ b, Rented w b → ∀ p, MovesTo w b p o → p = place b

theorem leavesRented_iff (w : World) (o : Op) : LeavesRented w o ↔ SparesRented w o := by
  rcases ho : o.isRental with _ | _
  · constructor
    · intro h b hrented p hp
      obtain ⟨x, hx, hxid, hxplace⟩ := h ho b hrented
      obtain ⟨b', hb', hid, hmoved, -⟩ := step_battery ho hrented.1
      obtain rfl : b' = x := Table.eq_of_key hb' hx (hid.trans hxid.symm)
      rw [← hmoved p hp, hxplace]
    · intro h _ b hrented
      obtain ⟨b', hb', hid, hmoved, hstays⟩ := step_battery ho hrented.1
      refine ⟨b', hb', hid, ?_⟩
      by_cases hmoves : ∃ p, MovesTo w b p o
      · obtain ⟨p, hp⟩ := hmoves
        rw [hmoved p hp, h b hrented p hp]
      · exact hstays fun p hp => hmoves ⟨p, hp⟩
  · refine iff_of_true (fun hno => ?_) fun b _ p hp => ?_
    · rw [ho] at hno
      cases hno
    · cases o with
      | rental c => exact hp.elim
      | manifest o => cases ho
      | autoGenerateSchedules now => cases ho
      | recordMaintenance now userId data => cases ho
      | updateBatteryStatus now dealerId batteryId newStatus reason userId => cases ho
      | bulkUpdateStatus now dealerId batteryIds newStatus reason userId => cases ho
      | upkeep schedules batteryUpkeep stationUpkeep => cases ho

/-- **Rented batteries are left alone** over a run exactly if no operation of it puts one
elsewhere. -/
theorem rented_batteries_left_alone (w : World) (os : List Op) :
    Along step LeavesRented w os ↔ Along step SparesRented w os :=
  along_congr (I := fun _ => True) (fun _ _ _ => trivial) (fun w o _ => leavesRented_iff w o)
    trivial os

end

/-! ## Maintenance of a rented battery -/

def rentalWorld : World where
  fleet := Exclusivity.rentalStore

/-- The rental is initiated and paid for. -/
def rentedOut : List Op :=
  [.rental (.initiateRental 100 1 { batteryId := 7, startStationId := 3 }),
    .rental (.confirmRentalVerified 200 Exclusivity.paid 1 1 ⟨"order_1", "pay_1", "sig"⟩ none)]

def maintenanceRecorded : Op :=
  .recordMaintenance 300 2
    { entityType := some "battery", entityId := some 7, description := some "Terminals cleaned" }

/-- The battery is ready again while it is at the customer. -/
theorem rented_battery_recorded :
    ¬ ∀ (w : World) (os : List Op), Along step LeavesRented w os := by
  intro hall
  have halong := hall rentalWorld (rentedOut ++ [maintenanceRecorded])
  have hleaves := along_iff.mp halong rentedOut maintenanceRecorded [] rfl rfl
  have hrented : ∃ b, Rented (run step rentalWorld rentedOut) b ∧ b.status = .deployed := by
    obtain ⟨b, hb, hbattery⟩ : ∃ b ∈ (run step rentalWorld rentedOut).fleet.batteries.rows,
        b.id = 7 ∧ b.status = .deployed := by decide +kernel
    obtain ⟨r, hr, hrental⟩ : ∃ r ∈ (run step rentalWorld rentedOut).fleet.rentals.rows,
        r.status = .active ∧ r.batteryId = 7 := by decide +kernel
    exact ⟨b, ⟨hb, r, hr, .inl hrental.1, hrental.2.trans hbattery.1.symm⟩, hbattery.2⟩
  have hready : ∀ b ∈ (step (run step rentalWorld rentedOut)
      maintenanceRecorded).fleet.batteries.rows, b.status = .ready := by
    decide +kernel
  obtain ⟨b, hb, hdeployed⟩ := hrented
  obtain ⟨b', hb', -, hplace⟩ := hleaves b hb
  have hstatus : b'.status = b.status := congrArg Prod.fst hplace
  rw [hready b' hb', hdeployed] at hstatus
  cases hstatus

end WezuBackend.Rental.OtherOperations
