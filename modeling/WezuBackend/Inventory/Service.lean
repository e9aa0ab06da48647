import WezuBackend.Fleet.Transitions

/-!
# Inventory: transfers and the dealer portal

The operations of `app/services/inventory_service.py` and of the dealer portal's inventory service
that write batteries.  They write the status and the place of a battery themselves, beside
`apply_battery_transition`.

`confirmReceipt_of_receivable`, `updateBatteryStatus_call`, `bulkUpdateStatus_call` and
`addBattery_call` say what each of them leaves in the store.
-/

namespace WezuBackend.Inventory.Service

open Lib.Tables Lib.Atomicity Lib.Atomicity.Tx Core.Base Core.Text Fleet.Model

/-! ## Tables -/

structure BatteryTransfer where
  id : ℕ
  batteryId : ℕ
  fromLocationType : String
  fromLocationId : ℕ
  toLocationType : String
  toLocationId : ℕ
  status : String := "pending"
  updatedAt : ℕ := 0
  deriving DecidableEq, Repr

structure InventoryAuditLog where
  id : ℕ
  batteryId : ℕ
  actionType : String
  fromLocationType : Option String
  fromLocationId : Option ℕ
  toLocationType : Option String
  toLocationId : Option ℕ
  actorId : Option ℕ
  notes : Option String
  deriving DecidableEq, Repr

instance : Row BatteryTransfer ℕ := ⟨BatteryTransfer.id⟩
instance : Row InventoryAuditLog ℕ := ⟨InventoryAuditLog.id⟩

structure Store where
  fleet : Db
  batteryTransfers : Table BatteryTransfer := .empty
  inventoryAuditLogs : Table InventoryAuditLog := .empty
  /-- the `dealer_id` column of the stations -/
  dealerOf : ℕ → Option ℕ := fun _ => none

abbrev InventoryTx (α : Type) : Type := Tx Exc Store α

def Store.saveBattery (s : Store) (battery : Battery) : Store :=
  { s with fleet := { s.fleet with batteries := s.fleet.batteries.set battery } }

def Store.saveTransfer (s : Store) (transfer : BatteryTransfer) : Store :=
  { s with batteryTransfers := s.batteryTransfers.set transfer }

def Store.addLifecycleEvent (s : Store) (now batteryId : ℕ) (eventType : String)
    (description : String) (actorId : Option ℕ) : Store :=
  { s with
    fleet :=
      { s.fleet with
        batteryLifecycleEvents := s.fleet.batteryLifecycleEvents.add fun id =>
          { id, batteryId, eventType, actorId, timestamp := now,
            description := some description } } }

/-! ## Transfers -/

/-- `log_inventory_change`; it commits. -/
def logInventoryChange (batteryId : ℕ) (actionType : String) (fromLocType : Option String)
    (fromLocId : Option ℕ) (toLocType : Option String) (toLocId actorId : Option ℕ)
    (notes : Option String) : InventoryTx Unit := do
  update fun s =>
    { s with
      inventoryAuditLogs := s.inventoryAuditLogs.add fun id =>
        { id, batteryId, actionType, fromLocationType := fromLocType, fromLocationId := fromLocId,
          toLocationType := toLocType, toLocationId := toLocId, actorId, notes } }
  commit

def delivered (now : ℕ) (transfer : BatteryTransfer) (battery : Battery) : Battery :=
  let battery :=
    if transfer.toLocationType = "station" then
      { battery with
        stationId := some transfer.toLocationId
        locationType := some .station
        locationId := some transfer.toLocationId }
    else if transfer.toLocationType = "warehouse" then
      { battery with
        stationId := none
        locationType := some .warehouse
        locationId := some transfer.toLocationId }
    else battery
  { battery with status := .available, updatedAt := now }

def confirmReceipt (now transferId actorId : ℕ) : InventoryTx BatteryTransfer := do
  let s ← look
  let transfer ← demand (s.batteryTransfers.get? transferId) (.valueError "Transfer not found")
  if transfer.status = "received" then return transfer
  let battery ← demand (s.fleet.batteries.get? transfer.batteryId) (.valueError "Battery not found")
  let received := { transfer with status := "received", updatedAt := now }
  let battery := delivered now transfer battery
  update fun s => (s.saveTransfer received).saveBattery battery
  -- the foreign key of `station_id`
  ensure (∀ k ∈ battery.stationId, (s.fleet.stations.get? k).isSome) .integrityError
  logInventoryChange battery.id "transfer_completed" (some transfer.fromLocationType)
    (some transfer.fromLocationId) (some transfer.toLocationType) (some transfer.toLocationId)
    (some actorId) (some s!"Transfer {transferId} confirmed")
  commit
  return received

/-! ## The dealer portal -/

/-- `battery.station_id in _get_dealer_station_ids(db, dealer_id)`. -/
def inDealerStations (s : Store) (dealerId : ℕ) (stationId : Option ℕ) : Bool :=
  match stationId with
  | none => false
  | some k => (s.fleet.stations.get? k).isSome ∧ s.dealerOf k = some dealerId

def statusMap : List (String × BatteryStatus) :=
  [("available", .available), ("maintenance", .maintenance), ("charging", .charging),
    ("rented", .rented), ("retired", .retired), ("defective", .retired)]

/-- `status_map[new_status.lower()]`. -/
def mappedStatus (newStatus : String) : Option BatteryStatus := statusMap.lookup (lower newStatus)

def dealerBattery (s : Store) (dealerId batteryId : ℕ) : Option Battery :=
  (s.fleet.batteries.get? batteryId).filter fun b => inDealerStations s dealerId b.stationId

def writeStatus (now : ℕ) (battery : Battery) (status : BatteryStatus) (eventType : String)
    (description : String) (userId : Option ℕ) (s : Store) : Store :=
  (s.saveBattery { battery with status, updatedAt := now }).addLifecycleEvent now battery.id
    eventType description userId

def updateBatteryStatus (now dealerId batteryId : ℕ) (newStatus : String) (reason : Option String)
    (userId : Option ℕ) : InventoryTx Unit := do
  let s ← look
  let battery ← demand (dealerBattery s dealerId batteryId)
    (.valueError "Battery not found or not in dealer's stations")
  let status ← demand (mappedStatus newStatus) <| .valueError <|
    s!"Invalid status: {newStatus}. Must be one of: ['available', 'maintenance', 'charging', " ++
      "'rented', 'retired', 'defective']"
  update <| writeStatus now battery status s!"status_changed_to_{lower newStatus}"
    ((truthy reason).getD s!"Status changed from {battery.status.text} to {newStatus}") userId
  commit

/-- One round of the loop of `bulk_update_status`. -/
def bulkRound (now dealerId : ℕ) (newStatus : String) (status : BatteryStatus)
    (reason : Option String) (userId : Option ℕ) (s : Store) (batteryId : ℕ) : Store :=
  match dealerBattery s dealerId batteryId with
  | none => s
  | some battery =>
    writeStatus now battery status s!"bulk_status_changed_to_{lower newStatus}"
      ((truthy reason).getD s!"Bulk status change from {battery.status.text} to {newStatus}")
      userId s

def bulkUpdateStatus (now dealerId : ℕ) (batteryIds : List ℕ) (newStatus : String)
    (reason : Option String) (userId : Option ℕ) : InventoryTx Unit := do
  let status ← demand (mappedStatus newStatus) (.valueError s!"Invalid status: {newStatus}")
  update fun s => batteryIds.foldl (bulkRound now dealerId newStatus status reason userId) s
  commit

/-- The row of a battery that a dealer adds. -/
def newBattery (now : ℕ) (serialNumber : String) (stationId : ℕ) (modelId : Option ℕ)
    (purchasePrice : ℚ) (id : ℕ) : Battery where
  id := id
  serialNumber := serialNumber
  skuId := modelId
  stationId := some stationId
  purchaseCost := purchasePrice
  status := .available
  currentCharge := 100
  updatedAt := now

def addBattery (now dealerId : ℕ) (serialNumber : String) (stationId : ℕ) (modelId : Option ℕ)
    (purchasePrice : ℚ) (userId : Option ℕ) : InventoryTx Battery := do
  let s ← look
  ensure (inDealerStations s dealerId (some stationId))
    (.valueError "Station does not belong to this dealer")
  ensure (s.fleet.batteries.find? fun b => b.serialNumber = serialNumber).isNone
    (.valueError s!"Battery with serial number {serialNumber} already exists")
  let battery := newBattery now serialNumber stationId modelId purchasePrice
  update fun s => { s with fleet := { s.fleet with batteries := s.fleet.batteries.add battery } }
  -- the foreign key of `sku_id`
  ensure (∀ k ∈ modelId, (s.fleet.batteryCatalog.get? k).isSome) .integrityError
  commit
  let battery := battery s.fleet.batteries.freshKey
  update fun s => s.addLifecycleEvent now battery.id "created"
    s!"Battery added to inventory at station {stationId}" userId
  commit
  return battery

/-! ## What a call leaves -/

def receiptStored (now transferId actorId : ℕ) (transfer : BatteryTransfer) (battery : Battery)
    (s : Store) : Store :=
  let s := (s.saveTransfer { transfer with status := "received", updatedAt := now }).saveBattery
    (delivered now transfer battery)
  { s with
    inventoryAuditLogs := s.inventoryAuditLogs.add fun id =>
      { id, batteryId := battery.id, actionType := "transfer_completed",
        fromLocationType := some transfer.fromLocationType,
        fromLocationId := some transfer.fromLocationId,
        toLocationType := some transfer.toLocationType,
        toLocationId := some transfer.toLocationId, actorId := some actorId,
        notes := some s!"Transfer {transferId} confirmed" } }

@[simp] theorem delivered_id (now : ℕ) (transfer : BatteryTransfer) (b : Battery) :
    (delivered now transfer b).id = b.id := by
  unfold delivered
  dsimp only
  split_ifs <;> rfl

@[simp] theorem delivered_serialNumber (now : ℕ) (transfer : BatteryTransfer) (b : Battery) :
    (delivered now transfer b).serialNumber = b.serialNumber := by
  unfold delivered
  dsimp only
  split_ifs <;> rfl

@[simp] theorem delivered_status (now : ℕ) (transfer : BatteryTransfer) (b : Battery) :
    (delivered now transfer b).status = .available := rfl

/-- The transfer is still to be received, and nothing stands against it. -/
structure Receivable (now transferId : ℕ) (transfer : BatteryTransfer) (battery : Battery)
    (s : Store) : Prop where
  found : s.batteryTransfers.get? transferId = some transfer
  unreceived : transfer.status ≠ "received"
  known : s.fleet.batteries.get? transfer.batteryId = some battery
  station : ∀ k ∈ (delivered now transfer battery).stationId, (s.fleet.stations.get? k).isSome

variable {now transferId : ℕ} {s : Store} {transfer : BatteryTransfer}

variable {battery : Battery}

theorem Receivable.mem (h : Receivable now transferId transfer battery s) :
    battery ∈ s.fleet.batteries := (Table.get?_eq_some.mp h.known).1

theorem Receivable.unique {transfer transfer' : BatteryTransfer}
    {battery battery' : Battery} (h : Receivable now transferId transfer battery s)
    (h' : Receivable now transferId transfer' battery' s) :
    transfer' = transfer ∧ battery' = battery := by
  have htransfer : transfer' = transfer := Option.some.inj (h'.found.symm.trans h.found)
  subst htransfer
  exact ⟨rfl, Option.some.inj (h'.known.symm.trans h.known)⟩

theorem confirmReceipt_of_receivable {now transferId actorId : ℕ}
    (h : Receivable now transferId transfer battery s) :
    (confirmReceipt now transferId actorId).call s =
      (.ok { transfer with status := "received", updatedAt := now },
        receiptStored now transferId actorId transfer battery s) := by
  refine call_eq (t := .fresh (receiptStored now transferId actorId transfer battery s)) ?_
  rw [confirmReceipt, look_bind, Session.working_fresh, demand_bind h.found, if_neg h.unreceived,
    demand_bind h.known, update_bind, ensure_bind h.station, delivered_id]
  rfl

theorem confirmReceipt_of_received {now transferId actorId : ℕ}
    (hfound : s.batteryTransfers.get? transferId = some transfer)
    (hreceived : transfer.status = "received") :
    (confirmReceipt now transferId actorId).call s = (.ok transfer, s) := by
  refine call_eq (t := .fresh s) ?_
  rw [confirmReceipt, look_bind, Session.working_fresh, demand_bind hfound, if_pos hreceived]
  rfl

theorem confirmReceipt_refused (actorId : ℕ)
    (hreceived : ∀ transfer, s.batteryTransfers.get? transferId = some transfer →
      transfer.status ≠ "received")
    (hno : ∀ transfer battery, ¬ Receivable now transferId transfer battery s) :
    ∃ e, (confirmReceipt now transferId actorId).call s = (.error e, s) := by
  rcases htransfer : s.batteryTransfers.get? transferId with _ | transfer
  · refine ⟨.valueError "Transfer not found", call_eq (t := .fresh s) ?_⟩
    rw [confirmReceipt, look_bind, Session.working_fresh, demand_bind_none htransfer]
  · have hopen := hreceived transfer htransfer
    rcases hbattery : s.fleet.batteries.get? transfer.batteryId with _ | battery
    · refine ⟨.valueError "Battery not found", call_eq (t := .fresh s) ?_⟩
      rw [confirmReceipt, look_bind, Session.working_fresh, demand_bind htransfer, if_neg hopen,
        demand_bind_none hbattery]
    · have hstation : ¬ ∀ k ∈ (delivered now transfer battery).stationId,
          (s.fleet.stations.get? k).isSome := fun hstation =>
        hno transfer battery ⟨htransfer, hopen, hbattery, hstation⟩
      refine ⟨.integrityError, ?_⟩
      rw [call, confirmReceipt, look_bind, Session.working_fresh, demand_bind htransfer,
        if_neg hopen, demand_bind hbattery, update_bind, ensure_bind_not hstation]
      rfl

/-! ### Dealers -/

theorem updateBatteryStatus_call (now dealerId batteryId : ℕ) (newStatus : String)
    (reason : Option String) (userId : Option ℕ) (s : Store) :
    (∃ battery status, dealerBattery s dealerId batteryId = some battery ∧
      mappedStatus newStatus = some status ∧
      ((updateBatteryStatus now dealerId batteryId newStatus reason userId).call s).2 =
        writeStatus now battery status s!"status_changed_to_{lower newStatus}"
          ((truthy reason).getD s!"Status changed from {battery.status.text} to {newStatus}")
          userId s) ∨
    ((dealerBattery s dealerId batteryId = none ∨ mappedStatus newStatus = none) ∧
      ((updateBatteryStatus now dealerId batteryId newStatus reason userId).call s).2 = s) := by
  rcases hbattery : dealerBattery s dealerId batteryId with _ | battery
  · refine .inr ⟨.inl rfl, ?_⟩
    rw [call, updateBatteryStatus, look_bind, Session.working_fresh, demand_bind_none hbattery]
    rfl
  rcases hstatus : mappedStatus newStatus with _ | status
  · refine .inr ⟨.inr rfl, ?_⟩
    rw [call, updateBatteryStatus, look_bind, Session.working_fresh, demand_bind hbattery,
      demand_bind_none hstatus]
    rfl
  · refine .inl ⟨battery, status, rfl, rfl, ?_⟩
    rw [call, updateBatteryStatus, look_bind, Session.working_fresh, demand_bind hbattery,
      demand_bind hstatus, update_bind]
    rfl

theorem bulkUpdateStatus_call (now dealerId : ℕ) (batteryIds : List ℕ) (newStatus : String)
    (reason : Option String) (userId : Option ℕ) (s : Store) :
    (∃ status, mappedStatus newStatus = some status ∧
      ((bulkUpdateStatus now dealerId batteryIds newStatus reason userId).call s).2 =
        batteryIds.foldl (bulkRound now dealerId newStatus status reason userId) s) ∨
    (mappedStatus newStatus = none ∧
      ((bulkUpdateStatus now dealerId batteryIds newStatus reason userId).call s).2 = s) := by
  rcases hstatus : mappedStatus newStatus with _ | status
  · refine .inr ⟨rfl, ?_⟩
    rw [call, bulkUpdateStatus, demand_bind_none hstatus]
    rfl
  · refine .inl ⟨status, rfl, ?_⟩
    rw [call, bulkUpdateStatus, demand_bind hstatus, update_bind]
    rfl

/-- A dealer's battery is added: its station is the dealer's, its serial is new and its model
exists. -/
structure Addable (dealerId : ℕ) (serialNumber : String) (stationId : ℕ) (modelId : Option ℕ)
    (s : Store) : Prop where
  station : inDealerStations s dealerId (some stationId) = true
  serial : ∀ b ∈ s.fleet.batteries, b.serialNumber ≠ serialNumber
  model : ∀ k ∈ modelId, (s.fleet.batteryCatalog.get? k).isSome

theorem addBattery_call (now dealerId : ℕ) (serialNumber : String) (stationId : ℕ)
    (modelId : Option ℕ) (purchasePrice : ℚ) (userId : Option ℕ) (s : Store) :
    (Addable dealerId serialNumber stationId modelId s ∧
      ((addBattery now dealerId serialNumber stationId modelId purchasePrice userId).call
        s).2.fleet.batteries =
          s.fleet.batteries.add
            (newBattery now serialNumber stationId modelId purchasePrice)) ∨
    (¬ Addable dealerId serialNumber stationId modelId s ∧
      ((addBattery now dealerId serialNumber stationId modelId purchasePrice userId).call s).2 =
        s) := by
  have hnone : (s.fleet.batteries.find? fun b => b.serialNumber = serialNumber).isNone ↔
      ∀ b ∈ s.fleet.batteries, b.serialNumber ≠ serialNumber := by
    rw [Option.isNone_iff_eq_none, Table.find?_eq_none]
    simp
  by_cases hstation : inDealerStations s dealerId (some stationId) = true
  swap
  · refine .inr ⟨fun h => hstation h.station, ?_⟩
    rw [call, addBattery, look_bind, Session.working_fresh, ensure_bind_not hstation]
    rfl
  by_cases hserial : (s.fleet.batteries.find? fun b => b.serialNumber = serialNumber).isNone
  swap
  · refine .inr ⟨fun h => hserial (hnone.mpr h.serial), ?_⟩
    rw [call, addBattery, look_bind, Session.working_fresh, ensure_bind hstation,
      ensure_bind_not hserial]
    rfl
  by_cases hmodel : ∀ k ∈ modelId, (s.fleet.batteryCatalog.get? k).isSome
  · refine .inl ⟨⟨hstation, hnone.mp hserial, hmodel⟩, ?_⟩
    rw [call, addBattery, look_bind, Session.working_fresh, ensure_bind hstation,
      ensure_bind hserial]
    dsimp only
    rw [update_bind, ensure_bind hmodel]
    rfl
  · refine .inr ⟨fun h => hmodel h.model, ?_⟩
    rw [call, addBattery, look_bind, Session.working_fresh, ensure_bind hstation,
      ensure_bind hserial]
    dsimp only
    rw [update_bind, ensure_bind_not hmodel]
    rfl

end WezuBackend.Inventory.Service
