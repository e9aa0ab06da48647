import WezuBackend.Inventory.Service
import WezuBackend.Lib.Runs

/-!
# Transfers on their way

The operations of `LogisticsService` and `InventoryService` that write battery transfers: a transfer
is created pending, by hand or by a restock, is assigned to a manifest, travels with it, and is
received.  Only the receipt and the bundling of pending transfers look at the status that a transfer
has, and a transfer is created beside another one of the same battery.

`Fine` says which operations leave received transfers alone and do not open a second transfer of a
battery; the lifecycle holds in a run exactly if all its operations are such
(`transfers_final_iff`).
-/

namespace WezuBackend.Inventory.ManifestTrips

open Lib.Tables Lib.Runs Lib.Atomicity Lib.Atomicity.Tx Core.Base Fleet.Model Inventory.Service

/-! ## Tables -/

structure Manifest where
  id : ℕ
  driverId : Option ℕ
  vehicleId : Option String := none
  status : String := "draft"
  deriving DecidableEq, Repr

instance : Row Manifest ℕ := ⟨Manifest.id⟩

structure StationSlot where
  id : ℕ
  stationId : ℕ
  status : String := "empty"
  deriving DecidableEq, Repr

instance : Row StationSlot ℕ := ⟨StationSlot.id⟩

structure Logistics where
  store : Store
  manifests : Table Manifest := .empty
  stationSlots : Table StationSlot := .empty
  /-- the `manifest_id` column of the transfers -/
  manifestOf : ℕ → Option ℕ := fun _ => none

abbrev LogisticsTx (α : Type) : Type := Tx Exc Logistics α

def onStore {α : Type} (x : InventoryTx α) : LogisticsTx α :=
  focus Logistics.store (fun store s => { s with store }) x

abbrev Logistics.transfers (s : Logistics) : Table BatteryTransfer := s.store.batteryTransfers

def Logistics.withTransfers (s : Logistics) (transfers : Table BatteryTransfer) : Logistics :=
  { s with store := { s.store with batteryTransfers := transfers } }

/-! ## The programs -/

structure TransferCreate where
  batteryId : ℕ
  fromLocationType : String
  fromLocationId : ℕ
  toLocationType : String
  toLocationId : ℕ

def newTransfer (t : TransferCreate) (id : ℕ) : BatteryTransfer where
  id := id
  batteryId := t.batteryId
  fromLocationType := t.fromLocationType
  fromLocationId := t.fromLocationId
  toLocationType := t.toLocationType
  toLocationId := t.toLocationId

/-- A new transfer belongs to no manifest. -/
def Logistics.addTransfer (s : Logistics) (t : TransferCreate) : Logistics :=
  { s.withTransfers (s.transfers.add (newTransfer t)) with
    manifestOf := Function.update s.manifestOf s.transfers.freshKey none }

def createTransfer (transferIn : TransferCreate) (actorId : ℕ) : LogisticsTx BatteryTransfer := do
  let s ← look
  ensure (s.store.fleet.batteries.get? transferIn.batteryId).isSome
    (.valueError "Battery not found")
  update fun s => s.addTransfer transferIn
  onStore <| logInventoryChange transferIn.batteryId "transfer_initiated"
    (some transferIn.fromLocationType) (some transferIn.fromLocationId)
    (some transferIn.toLocationType) (some transferIn.toLocationId) (some actorId) none
  commit
  return newTransfer transferIn s.transfers.freshKey

def createManifest (driverId : ℕ) (vehicleId : Option String) : LogisticsTx Manifest := do
  let s ← look
  -- the foreign key of `driver_id`
  ensure (s.store.fleet.users.get? driverId).isSome .integrityError
  let manifest (id : ℕ) : Manifest := { id, driverId := some driverId, vehicleId }
  update fun s => { s with manifests := s.manifests.add manifest }
  commit
  return manifest s.manifests.freshKey

def addTransferToManifest (manifestId transferId : ℕ) : LogisticsTx (Option BatteryTransfer) := do
  let s ← look
  match s.manifests.get? manifestId, s.transfers.get? transferId with
  | some _, some transfer =>
    let assigned := { transfer with status := "assigned" }
    update fun s =>
      { s.withTransfers (s.transfers.set assigned) with
        manifestOf := Function.update s.manifestOf transferId (some manifestId) }
    commit
    return some assigned
  | _, transfer => return transfer

/-- The transfers of the manifest, on their way. -/
def Logistics.started (s : Logistics) (manifest : Manifest) : Logistics :=
  { s.withTransfers (s.transfers.update (fun t => s.manifestOf t.id = some manifest.id)
      (fun t => { t with status := "in_transit" }) fun _ => rfl) with
    manifests := s.manifests.set { manifest with status := "active" } }

def startManifestTrip (manifestId : ℕ) : LogisticsTx (Option Manifest) := do
  let s ← look
  match s.manifests.get? manifestId with
  | none => return none
  | some manifest =>
    update fun s => s.started manifest
    commit
    return some { manifest with status := "active" }

def readyCount (s : Logistics) (stationId : ℕ) : ℕ :=
  (s.stationSlots.filter fun slot => slot.stationId = stationId ∧ slot.status = "ready").length

def restockPick (s : Logistics) (stationId : ℕ) (threshold : ℤ) : Option (Warehouse × Battery) := do
  if (readyCount s stationId : ℤ) < threshold then
    let warehouse ← s.store.fleet.warehouses.find? fun w => w.isActive
    let battery ← s.store.fleet.batteries.find? fun b =>
      b.locationType = some .warehouse ∧ b.locationId = some warehouse.id ∧ b.status = .available
    return (warehouse, battery)
  else none

/-- The battery of a restock: `maintenance` stands for a transfer that is pending. -/
def setAside (warehouse : Warehouse) (battery : Battery) : Battery :=
  { battery with
    status := .maintenance
    locationType := some .warehouse
    locationId := some warehouse.id }

def restockTransfer (stationId : ℕ) (warehouse : Warehouse) (battery : Battery) :
    TransferCreate where
  batteryId := battery.id
  fromLocationType := "warehouse"
  fromLocationId := warehouse.id
  toLocationType := "station"
  toLocationId := stationId

def checkAndTriggerRestock (stationId : ℕ) (threshold : ℤ) :
    LogisticsTx (Option BatteryTransfer) := do
  let s ← look
  match restockPick s stationId threshold with
  | none => return none
  | some (warehouse, battery) =>
    let transfer := restockTransfer stationId warehouse battery
    update fun s => s.addTransfer transfer
    update fun s => { s with store := s.store.saveBattery (setAside warehouse battery) }
    commit
    return some (newTransfer transfer s.transfers.freshKey)

def bundled (transferIds : List ℕ) (t : BatteryTransfer) : Bool :=
  t.id ∈ transferIds ∧ t.status = "pending"

def Logistics.bundle (s : Logistics) (driverId : ℕ) (transferIds : List ℕ) : Logistics :=
  { s.withTransfers (s.transfers.update (bundled transferIds)
      (fun t => { t with status := "assigned" }) fun _ => rfl) with
    manifests := s.manifests.add fun id => { id, driverId := some driverId, status := "assigned" }
    manifestOf := fun id =>
      if ∃ t ∈ s.transfers, t.id = id ∧ bundled transferIds t = true then some s.manifests.freshKey
      else s.manifestOf id }

def bundleTransfersIntoManifest (driverId : ℕ) (transferIds : List ℕ) : LogisticsTx Manifest := do
  let s ← look
  -- the foreign key of `driver_id`, when the manifest is flushed
  ensure (s.store.fleet.users.get? driverId).isSome .integrityError
  update fun s => s.bundle driverId transferIds
  commit
  return { id := s.manifests.freshKey, driverId := some driverId, status := "assigned" }

/-! ## Runs -/

inductive Operation where
  | createTransfer (transferIn : TransferCreate) (actorId : ℕ)
  | createManifest (driverId : ℕ) (vehicleId : Option String)
  | checkAndTriggerRestock (stationId : ℕ) (threshold : ℤ)
  | addTransferToManifest (manifestId transferId : ℕ)
  | bundleTransfersIntoManifest (driverId : ℕ) (transferIds : List ℕ)
  | startManifestTrip (manifestId : ℕ)
  | confirmReceipt (now transferId actorId : ℕ)

def exec (s : Logistics) : Operation → Logistics
  | .createTransfer transferIn actorId => ((createTransfer transferIn actorId).call s).2
  | .createManifest driverId vehicleId => ((createManifest driverId vehicleId).call s).2
  | .checkAndTriggerRestock stationId threshold =>
    ((checkAndTriggerRestock stationId threshold).call s).2
  | .addTransferToManifest manifestId transferId =>
    ((addTransferToManifest manifestId transferId).call s).2
  | .bundleTransfersIntoManifest driverId transferIds =>
    ((bundleTransfersIntoManifest driverId transferIds).call s).2
  | .startManifestTrip manifestId => ((startManifestTrip manifestId).call s).2
  | .confirmReceipt now transferId actorId =>
    ((onStore (confirmReceipt now transferId actorId)).call s).2

def movedBy (s : Logistics) : Operation → List ℕ
  | .confirmReceipt now transferId actorId =>
    match s.transfers.get? transferId, (confirmReceipt now transferId actorId).call s.store with
    | some transfer, (.ok _, _) => if transfer.status = "received" then [] else [transferId]
    | _, _ => []
  | _ => []

/-- The rows, and the receipts that have moved a battery. -/
structure History where
  logistics : Logistics
  moved : List ℕ

def step (h : History) (op : Operation) : History :=
  ⟨exec h.logistics op, h.moved ++ movedBy h.logistics op⟩

/-! ## The lifecycle -/

/-- The battery has a transfer that is not received. -/
def Open (s : Logistics) (batteryId : ℕ) : Prop :=
  ∃ t ∈ s.transfers, t.batteryId = batteryId ∧ t.status ≠ "received"

instance (s : Logistics) (batteryId : ℕ) : Decidable (Open s batteryId) := by
  unfold Open
  infer_instance

/-- A battery has at most one transfer that is not received. -/
def Single (s : Logistics) : Prop :=
  ∀ t ∈ s.transfers, ∀ t' ∈ s.transfers, t.batteryId = t'.batteryId → t.status ≠ "received" →
    t'.status ≠ "received" → t = t'

/-- Each battery has at most one open transfer, and each transfer moved its battery at most once. -/
structure Sound (h : History) : Prop where
  single : Single h.logistics
  once : h.moved.Nodup
  received : ∀ id ∈ h.moved, ∃ t ∈ h.logistics.transfers, t.id = id ∧ t.status = "received"

/-- The transfers that were received are as they were. -/
def Final (h h' : History) : Prop :=
  ∀ t ∈ h.logistics.transfers, t.status = "received" →
    t ∈ h'.logistics.transfers ∧ h'.logistics.manifestOf t.id = h.logistics.manifestOf t.id

/-- What the code does not check. -/
def Fine (h : History) : Operation → Prop
  | .createTransfer transferIn _ =>
    (h.logistics.store.fleet.batteries.get? transferIn.batteryId).isSome →
      ¬ Open h.logistics transferIn.batteryId
  | .checkAndTriggerRestock stationId threshold =>
    ∀ pick ∈ restockPick h.logistics stationId threshold, ¬ Open h.logistics pick.2.id
  | .addTransferToManifest manifestId transferId =>
    (h.logistics.manifests.get? manifestId).isSome →
      ∀ t ∈ h.logistics.transfers.get? transferId, t.status ≠ "received"
  | .startManifestTrip manifestId =>
    (h.logistics.manifests.get? manifestId).isSome →
      ∀ t ∈ h.logistics.transfers, h.logistics.manifestOf t.id = some manifestId →
        t.status ≠ "received"
  | _ => True

/-! ## What an operation does to the transfers -/

/-- No transfer is opened, and what was received stays as it was. -/
structure Continued (s s' : Logistics) : Prop where
  row : ∀ t' ∈ s'.transfers, ∃ t ∈ s.transfers, t.id = t'.id ∧ t.batteryId = t'.batteryId
  final : ∀ t ∈ s.transfers, t.status = "received" →
    t ∈ s'.transfers ∧ s'.manifestOf t.id = s.manifestOf t.id

structure Opened (t : TransferCreate) (s s' : Logistics) : Prop where
  transfers : s'.transfers = s.transfers.add (newTransfer t)
  manifestOf : ∀ id ≠ s.transfers.freshKey, s'.manifestOf id = s.manifestOf id

section

variable {s s' : Logistics}

theorem Continued.refl (s : Logistics) : Continued s s :=
  ⟨fun t ht => ⟨t, ht, rfl, rfl⟩, fun _ ht _ => ⟨ht, rfl⟩⟩

/-- The transfers are rewritten, those received to what they are. -/
theorem Continued.of_map (g : BatteryTransfer → BatteryTransfer)
    (hmem : ∀ x, x ∈ s'.transfers ↔ ∃ t ∈ s.transfers, g t = x)
    (hkeep : ∀ t ∈ s.transfers, (g t).id = t.id ∧ (g t).batteryId = t.batteryId)
    (hreceived : ∀ t ∈ s.transfers, t.status = "received" →
      g t = t ∧ s'.manifestOf t.id = s.manifestOf t.id) : Continued s s' := by
  refine ⟨fun x hx => ?_, fun t ht hrec => ?_⟩
  · obtain ⟨t, ht, rfl⟩ := (hmem x).mp hx
    exact ⟨t, ht, (hkeep t ht).1.symm, (hkeep t ht).2.symm⟩
  · obtain ⟨hg, hmanifest⟩ := hreceived t ht hrec
    exact ⟨(hmem t).mpr ⟨t, ht, hg⟩, hmanifest⟩

theorem Continued.single (h : Continued s s') (hs : Single s) : Single s' := by
  have hopen : ∀ x ∈ s'.transfers, x.status ≠ "received" → ∃ t ∈ s.transfers, t.id = x.id ∧
      t.batteryId = x.batteryId ∧ t.status ≠ "received" := by
    intro x hx hstatus
    obtain ⟨t, ht, hid, hbattery⟩ := h.row x hx
    refine ⟨t, ht, hid, hbattery, fun hrec => hstatus ?_⟩
    obtain rfl : t = x := Table.eq_of_key (h.final t ht hrec).1 hx hid
    exact hrec
  intro x hx y hy hbattery hxs hys
  obtain ⟨t, ht, hid, htb, hts⟩ := hopen x hx hxs
  obtain ⟨u, hu, huid, hub, hus⟩ := hopen y hy hys
  obtain rfl : t = u := hs t ht u hu (by rw [htb, hub, hbattery]) hts hus
  exact Table.eq_of_key hx hy (hid.symm.trans huid)

variable {t : TransferCreate}

theorem Opened.final (h : Opened t s s') :
    ∀ x ∈ s.transfers, x ∈ s'.transfers ∧ s'.manifestOf x.id = s.manifestOf x.id := by
  intro x hx
  have hlt : x.id < s.transfers.freshKey := Table.key_lt_freshKey hx
  refine ⟨?_, h.manifestOf x.id (by omega)⟩
  rw [h.transfers]
  exact Table.mem_add.mpr (.inl hx)

theorem Opened.single_iff (h : Opened t s s') (hs : Single s) :
    Single s' ↔ ¬ Open s t.batteryId := by
  have hnew : newTransfer t s.transfers.freshKey ∈ s'.transfers := by
    rw [h.transfers]
    exact Table.mem_add.mpr (.inr rfl)
  have hpending : (newTransfer t s.transfers.freshKey).status ≠ "received" := by
    show "pending" ≠ "received"
    decide
  constructor
  · rintro hsingle ⟨x, hx, hbattery, hstatus⟩
    have hsame := hsingle x (h.final x hx).1 _ hnew hbattery hstatus hpending
    have hlt : x.id < s.transfers.freshKey := Table.key_lt_freshKey hx
    rw [hsame] at hlt
    exact Nat.lt_irrefl _ hlt
  · intro hopen x hx y hy hbattery hxs hys
    rw [h.transfers] at hx hy
    rcases Table.mem_add.mp hx with hx | rfl <;> rcases Table.mem_add.mp hy with hy | rfl
    · exact hs x hx y hy hbattery hxs hys
    · exact absurd ⟨x, hx, hbattery, hxs⟩ hopen
    · exact absurd ⟨y, hy, hbattery.symm, hys⟩ hopen
    · rfl

/-! ### The operations -/

theorem exec_createTransfer (s : Logistics) (t : TransferCreate) (actorId : ℕ) :
    (s.store.fleet.batteries.get? t.batteryId).isSome ∧
        Opened t s (exec s (.createTransfer t actorId)) ∨
      ¬ (s.store.fleet.batteries.get? t.batteryId).isSome ∧
        exec s (.createTransfer t actorId) = s := by
  by_cases hbattery : (s.store.fleet.batteries.get? t.batteryId).isSome
  · refine .inl ⟨hbattery, ?_⟩
    have hcall : exec s (.createTransfer t actorId) =
        ((onStore (logInventoryChange t.batteryId "transfer_initiated" (some t.fromLocationType)
          (some t.fromLocationId) (some t.toLocationType) (some t.toLocationId) (some actorId)
          none)) ⟨s, s.addTransfer t⟩).2.working := by
      rw [exec, call, createTransfer, look_bind, Session.working_fresh, ensure_bind hbattery,
        update_bind]
      rfl
    rw [hcall]
    exact ⟨rfl, fun id hid => Function.update_of_ne hid _ _⟩
  · refine .inr ⟨hbattery, ?_⟩
    rw [exec, call, createTransfer, look_bind, Session.working_fresh, ensure_bind_not hbattery]
    rfl

theorem exec_restock (s : Logistics) (stationId : ℕ) (threshold : ℤ) :
    (∃ warehouse battery, restockPick s stationId threshold = some (warehouse, battery) ∧
        Opened (restockTransfer stationId warehouse battery) s
          (exec s (.checkAndTriggerRestock stationId threshold))) ∨
      restockPick s stationId threshold = none ∧
        exec s (.checkAndTriggerRestock stationId threshold) = s := by
  rcases hpick : restockPick s stationId threshold with _ | ⟨warehouse, battery⟩
  · refine .inr ⟨rfl, ?_⟩
    rw [exec, call, checkAndTriggerRestock, look_bind, Session.working_fresh, hpick]
    rfl
  · refine .inl ⟨warehouse, battery, rfl, ?_⟩
    have hcall : exec s (.checkAndTriggerRestock stationId threshold) =
        { s.addTransfer (restockTransfer stationId warehouse battery) with
          store := (s.addTransfer (restockTransfer stationId warehouse battery)).store.saveBattery
            (setAside warehouse battery) } := by
      rw [exec, call, checkAndTriggerRestock, look_bind, Session.working_fresh, hpick]
      rfl
    rw [hcall]
    exact ⟨rfl, fun id hid => Function.update_of_ne hid _ _⟩

theorem exec_createManifest (s : Logistics) (driverId : ℕ) (vehicleId : Option String) :
    Continued s (exec s (.createManifest driverId vehicleId)) := by
  by_cases hdriver : (s.store.fleet.users.get? driverId).isSome
  · rw [exec, call, createManifest, look_bind, Session.working_fresh, ensure_bind hdriver]
    exact ⟨fun t ht => ⟨t, ht, rfl, rfl⟩, fun _ ht _ => ⟨ht, rfl⟩⟩
  · rw [exec, call, createManifest, look_bind, Session.working_fresh, ensure_bind_not hdriver]
    exact .refl s

theorem exec_bundle (s : Logistics) (driverId : ℕ) (transferIds : List ℕ) :
    Continued s (exec s (.bundleTransfersIntoManifest driverId transferIds)) := by
  by_cases hdriver : (s.store.fleet.users.get? driverId).isSome
  · have hcall : exec s (.bundleTransfersIntoManifest driverId transferIds) =
        s.bundle driverId transferIds := by
      rw [exec, call, bundleTransfersIntoManifest, look_bind, Session.working_fresh,
        ensure_bind hdriver]
      rfl
    rw [hcall]
    refine .of_map (fun t => if bundled transferIds t then { t with status := "assigned" } else t)
      (fun x => List.mem_map) (fun t _ => by split_ifs <;> exact ⟨rfl, rfl⟩)
      fun t ht hrec => ?_
    have hnot : ∀ x ∈ s.transfers, x.id = t.id → ¬ bundled transferIds x = true := by
      intro x hx hid hbundled
      obtain rfl : x = t := Table.eq_of_key hx ht hid
      simp [bundled, hrec] at hbundled
    refine ⟨if_neg (hnot t ht rfl), if_neg ?_⟩
    rintro ⟨x, hx, hid, hbundled⟩
    exact hnot x hx hid hbundled
  · rw [exec, call, bundleTransfersIntoManifest, look_bind, Session.working_fresh,
      ensure_bind_not hdriver]
    exact .refl s

theorem continued_set {t r : BatteryTransfer} (ht : t ∈ s.transfers) (hopen : t.status ≠ "received")
    (hid : r.id = t.id) (hbattery : r.batteryId = t.batteryId)
    (htransfers : s'.transfers = s.transfers.set r)
    (hmanifest : ∀ id ≠ t.id, s'.manifestOf id = s.manifestOf id) : Continued s s' := by
  have hself : ∀ x ∈ s.transfers, x.id = r.id → x = t := fun x hx hxr =>
    Table.eq_of_key hx ht (hxr.trans hid)
  refine .of_map (fun x => if x.id = r.id then r else x) (fun x => ?_) (fun x hx => ?_)
    fun x hx hrec => ?_
  · rw [htransfers]
    exact List.mem_map
  · split_ifs with hxr
    · rw [hself x hx hxr]
      exact ⟨hid, hbattery⟩
    · exact ⟨rfl, rfl⟩
  · have hne : x.id ≠ r.id := by
      intro hxr
      rw [hself x hx hxr] at hrec
      exact hopen hrec
    exact ⟨if_neg hne, hmanifest x.id (hid ▸ hne)⟩

theorem exec_addTransfer (s : Logistics) (manifestId transferId : ℕ) :
    (∃ t ∈ s.transfers, t.id = transferId ∧ (s.manifests.get? manifestId).isSome ∧
        { t with status := "assigned" } ∈
          (exec s (.addTransferToManifest manifestId transferId)).transfers ∧
        (t.status ≠ "received" →
          Continued s (exec s (.addTransferToManifest manifestId transferId)))) ∨
      (¬ (s.manifests.get? manifestId).isSome ∨ s.transfers.get? transferId = none) ∧
        exec s (.addTransferToManifest manifestId transferId) = s := by
  rcases hmanifest : s.manifests.get? manifestId with _ | manifest
  · refine .inr ⟨.inl (by simp), ?_⟩
    rw [exec, call, addTransferToManifest, look_bind, Session.working_fresh, hmanifest]
    rfl
  rcases htransfer : s.transfers.get? transferId with _ | t
  · refine .inr ⟨.inr rfl, ?_⟩
    rw [exec, call, addTransferToManifest, look_bind, Session.working_fresh, hmanifest, htransfer]
    rfl
  · obtain ⟨ht, hid⟩ := Table.get?_eq_some.mp htransfer
    have hcall : exec s (.addTransferToManifest manifestId transferId) =
        { s.withTransfers (s.transfers.set { t with status := "assigned" }) with
          manifestOf := Function.update s.manifestOf transferId (some manifestId) } := by
      rw [exec, call, addTransferToManifest, look_bind, Session.working_fresh, hmanifest, htransfer]
      rfl
    rw [hcall]
    refine .inl ⟨t, ht, hid, rfl, Table.mem_set.mpr (.inr ⟨rfl, t, ht, rfl⟩), fun hopen => ?_⟩
    refine continued_set (r := { t with status := "assigned" }) ht hopen rfl rfl rfl
      fun id hne => Function.update_of_ne ?_ _ _
    rintro rfl
    exact hne hid.symm

theorem exec_startTrip (s : Logistics) (manifestId : ℕ) :
    ((s.manifests.get? manifestId).isSome ∧
        (∀ x, x ∈ (exec s (.startManifestTrip manifestId)).transfers ↔ ∃ t ∈ s.transfers,
          (if s.manifestOf t.id = some manifestId then { t with status := "in_transit" } else t) =
            x) ∧
        (exec s (.startManifestTrip manifestId)).manifestOf = s.manifestOf) ∨
      ¬ (s.manifests.get? manifestId).isSome ∧ exec s (.startManifestTrip manifestId) = s := by
  rcases hmanifest : s.manifests.get? manifestId with _ | manifest
  · refine .inr ⟨by simp, ?_⟩
    rw [exec, call, startManifestTrip, look_bind, Session.working_fresh, hmanifest]
    rfl
  · have hid : manifest.id = manifestId := (Table.get?_eq_some.mp hmanifest).2
    have hcall : exec s (.startManifestTrip manifestId) = s.started manifest := by
      rw [exec, call, startManifestTrip, look_bind, Session.working_fresh, hmanifest]
      rfl
    rw [hcall]
    refine .inl ⟨rfl, fun x => ?_, rfl⟩
    have hmem : x ∈ (s.started manifest).transfers ↔ ∃ t ∈ s.transfers,
        (if decide (s.manifestOf t.id = some manifest.id) = true then
          { t with status := "in_transit" } else t) = x := List.mem_map
    simp only [decide_eq_true_eq, hid] at hmem
    exact hmem

theorem exec_confirm (s : Logistics) (now transferId actorId : ℕ) :
    exec s (.confirmReceipt now transferId actorId) =
      { s with store := ((confirmReceipt now transferId actorId).call s.store).2 } := rfl

theorem exec_confirmReceipt (s : Logistics) (now transferId actorId : ℕ) :
    Continued s (exec s (.confirmReceipt now transferId actorId)) ∧
      ∀ id ∈ movedBy s (.confirmReceipt now transferId actorId), id = transferId ∧
        (∀ t ∈ s.transfers, t.id = id → t.status ≠ "received") ∧
        ∃ t ∈ (exec s (.confirmReceipt now transferId actorId)).transfers, t.id = id ∧
          t.status = "received" := by
  rw [exec_confirm, movedBy]
  by_cases hrec : ∃ t battery, Receivable now transferId t battery s.store
  · obtain ⟨t, battery, hreceivable⟩ := hrec
    obtain ⟨ht, hid⟩ := Table.get?_eq_some.mp hreceivable.found
    have hfound : s.transfers.get? transferId = some t := hreceivable.found
    rw [confirmReceipt_of_receivable hreceivable, hfound]
    refine ⟨continued_set (r := { t with status := "received", updatedAt := now }) ht
      hreceivable.unreceived rfl rfl rfl fun _ _ => rfl, fun id hmem => ?_⟩
    simp only [hreceivable.unreceived, if_false, List.mem_singleton] at hmem
    subst hmem
    refine ⟨rfl, fun x hx hxid => ?_, _, Table.mem_set.mpr (.inr ⟨rfl, t, ht, rfl⟩), hid, rfl⟩
    rw [Table.eq_of_key hx ht (hxid.trans hid.symm)]
    exact hreceivable.unreceived
  · rcases hfound : s.transfers.get? transferId with _ | t
    · obtain ⟨e, he⟩ := @confirmReceipt_refused now transferId s.store actorId
        (fun t ht => absurd (hfound.symm.trans ht) (by simp))
        fun t battery h => hrec ⟨t, battery, h⟩
      rw [he]
      exact ⟨.refl s, by simp⟩
    by_cases hstatus : t.status = "received"
    · rw [confirmReceipt_of_received hfound hstatus]
      exact ⟨.refl s, by simp [hstatus]⟩
    · obtain ⟨e, he⟩ := @confirmReceipt_refused now transferId s.store actorId
        (fun x hx => by rwa [← Option.some.inj (hfound.symm.trans hx)])
        fun t battery h => hrec ⟨t, battery, h⟩
      rw [he]
      exact ⟨.refl s, by simp⟩

end

/-! ## The step -/

section

variable {h : History} {op : Operation}

/-- An operation that opens no transfer and leaves what was received. -/
theorem sound_of_continued (hs : Sound h) (hc : Continued h.logistics (exec h.logistics op))
    (hmoved : ∀ id ∈ movedBy h.logistics op,
      (∀ t ∈ h.logistics.transfers, t.id = id → t.status ≠ "received") ∧
        ∃ t ∈ (exec h.logistics op).transfers, t.id = id ∧ t.status = "received")
    (honce : (movedBy h.logistics op).Nodup) : Sound (step h op) ∧ Final h (step h op) := by
  refine ⟨⟨hc.single hs.single, ?_, fun id hid => ?_⟩, hc.final⟩
  · refine List.nodup_append.mpr ⟨hs.once, honce, fun a ha b hb hab => ?_⟩
    obtain ⟨t, ht, hid, hrec⟩ := hs.received a ha
    exact (hmoved b hb).1 t ht (hid.trans hab) hrec
  · rcases List.mem_append.mp hid with hid | hid
    · obtain ⟨t, ht, htid, hrec⟩ := hs.received id hid
      exact ⟨t, (hc.final t ht hrec).1, htid, hrec⟩
    · exact (hmoved id hid).2

theorem movedBy_nodup (s : Logistics) (op : Operation) : (movedBy s op).Nodup := by
  unfold movedBy
  split
  · split
    · split_ifs <;> simp
    · exact List.nodup_nil
  · exact List.nodup_nil

theorem sound_opened {t : TransferCreate} (hs : Sound h)
    (hopened : Opened t h.logistics (exec h.logistics op)) (hmoved : movedBy h.logistics op = []) :
    Sound (step h op) ∧ Final h (step h op) ↔ ¬ Open h.logistics t.batteryId := by
  rw [← hopened.single_iff hs.single]
  constructor
  · exact fun h => h.1.single
  · refine fun hsingle => ⟨⟨hsingle, ?_, fun id hid => ?_⟩, fun x hx _ => hopened.final x hx⟩
    · rw [step, hmoved, List.append_nil]
      exact hs.once
    · rw [step, hmoved, List.append_nil] at hid
      obtain ⟨x, hx, hxid, hrec⟩ := hs.received id hid
      exact ⟨x, (hopened.final x hx).1, hxid, hrec⟩

theorem Final.refl (h : History) : Final h h := fun _ ht _ => ⟨ht, rfl⟩

theorem Final.trans {h h' h'' : History} (hh : Final h h') (hh' : Final h' h'') : Final h h'' := by
  intro t ht hrec
  obtain ⟨ht', hof⟩ := hh t ht hrec
  obtain ⟨ht'', hof'⟩ := hh' t ht' hrec
  exact ⟨ht'', hof'.trans hof⟩

/-- A row that was received is not another row of the same number. -/
theorem not_final {t t' : BatteryTransfer} (ht : t ∈ h.logistics.transfers)
    (hrec : t.status = "received") (ht' : t' ∈ (exec h.logistics op).transfers)
    (hid : t'.id = t.id) (hstatus : t'.status ≠ "received") : ¬ Final h (step h op) := by
  intro hfinal
  have hsame : t = t' := Table.eq_of_key (hfinal t ht hrec).1 ht' hid.symm
  exact hstatus (hsame ▸ hrec)

theorem step_iff (hs : Sound h) : Sound (step h op) ∧ Final h (step h op) ↔ Fine h op := by
  have hidle : exec h.logistics op = h.logistics → movedBy h.logistics op = [] →
      Sound (step h op) ∧ Final h (step h op) := fun hexec hmoved =>
    sound_of_continued hs (hexec.symm ▸ .refl h.logistics) (by simp [hmoved]) (movedBy_nodup _ _)
  cases op with
  | createTransfer transferIn actorId =>
    rcases exec_createTransfer h.logistics transferIn actorId with ⟨hbattery, ho⟩ | ⟨hnone, he⟩
    · exact (sound_opened hs ho rfl).trans ⟨fun hf _ => hf, fun hf => hf hbattery⟩
    · exact ⟨fun _ hbattery => absurd hbattery hnone, fun _ => hidle he rfl⟩
  | createManifest driverId vehicleId =>
    exact ⟨fun _ => trivial, fun _ => sound_of_continued hs (exec_createManifest _ _ _)
      (by simp [movedBy]) (movedBy_nodup _ _)⟩
  | checkAndTriggerRestock stationId threshold =>
    rcases exec_restock h.logistics stationId threshold with ⟨w, b, hpick, ho⟩ | ⟨hnone, he⟩
    · rw [sound_opened hs ho rfl, Fine, hpick]
      simp [restockTransfer]
    · rw [Fine, hnone]
      exact ⟨fun _ => by simp, fun _ => hidle he rfl⟩
  | addTransferToManifest manifestId transferId =>
    rcases exec_addTransfer h.logistics manifestId transferId with
      ⟨t, ht, hid, hmanifest, hassigned, hc⟩ | ⟨hnone, he⟩
    · have hfound : h.logistics.transfers.get? transferId = some t :=
        Table.get?_eq_some.mpr ⟨ht, hid⟩
      rw [Fine, hfound]
      constructor
      · rintro ⟨-, hfinal⟩ - x hx hrec
        obtain rfl := Option.some.inj hx
        exact not_final ht hrec hassigned rfl (show "assigned" ≠ "received" by decide) hfinal
      · intro hfine
        exact sound_of_continued hs (hc (hfine hmanifest t rfl)) (by simp [movedBy])
          (movedBy_nodup _ _)
    · refine ⟨fun _ hmanifest x hx => ?_, fun _ => hidle he rfl⟩
      rcases hnone with hnone | hnone
      · exact absurd hmanifest hnone
      · rw [hnone] at hx
        cases hx
  | bundleTransfersIntoManifest driverId transferIds =>
    exact ⟨fun _ => trivial, fun _ => sound_of_continued hs (exec_bundle _ _ _)
      (by simp [movedBy]) (movedBy_nodup _ _)⟩
  | startManifestTrip manifestId =>
    rcases exec_startTrip h.logistics manifestId with ⟨hmanifest, hmem, hof⟩ | ⟨hnone, he⟩
    · constructor
      · rintro ⟨-, hfinal⟩ - t ht hmt hrec
        exact not_final ht hrec ((hmem _).mpr ⟨t, ht, if_pos hmt⟩) rfl
          (show "in_transit" ≠ "received" by decide) hfinal
      · intro hfine
        refine sound_of_continued hs (.of_map _ hmem (fun t _ => ?_) fun t ht hrec => ?_)
          (by simp [movedBy]) (movedBy_nodup _ _)
        · split_ifs <;> exact ⟨rfl, rfl⟩
        · exact ⟨if_neg fun hmt => hfine hmanifest t ht hmt hrec, congrFun hof t.id⟩
    · exact ⟨fun _ hmanifest => absurd hmanifest hnone, fun _ => hidle he rfl⟩
  | confirmReceipt now transferId actorId =>
    obtain ⟨hc, hmoved⟩ := exec_confirmReceipt h.logistics now transferId actorId
    exact ⟨fun _ => trivial, fun _ => sound_of_continued hs hc (fun id hid => (hmoved id hid).2)
      (movedBy_nodup _ _)⟩

end

/-- **The lifecycle of transfers** holds in a run, from a store where each battery has at most one
open transfer, exactly if every operation of the run is fine. -/
theorem transfers_final_iff (s : Logistics) (hs : Single s) (ops : List Operation) :
    (∀ p q r, ops = p ++ q ++ r → Sound (run step ⟨s, []⟩ p) ∧
      Final (run step ⟨s, []⟩ p) (run step ⟨s, []⟩ (p ++ q))) ↔
    Along step Fine ⟨s, []⟩ ops :=
  kept_iff_along (J := fun _ => True) (I := Sound) (R := Final) Final.refl Final.trans
    (fun _ _ _ _ => trivial) (fun _ _ _ hsound => step_iff hsound) trivial
    ⟨hs, List.nodup_nil, by simp⟩ ops

/-! ## A receipt that is taken back -/

def depot : Logistics where
  store := { fleet := {
    batteries := ⟨[{ id := 1, serialNumber := "B1", locationId := some 6 }], by decide⟩
    stations := ⟨[{ id := 3 }, { id := 4 }], by decide⟩
    warehouses := ⟨[{ id := 6 }], by decide⟩
    users := ⟨[{ id := 8, phoneNumber := none }], by decide⟩ } }

theorem depot_single : Single depot := by
  intro t ht
  cases ht

/-- A restock is bundled, travels and is received, and the battery comes back. -/
def roundTrip : List Operation :=
  [.checkAndTriggerRestock 3 2, .bundleTransfersIntoManifest 8 [1], .startManifestTrip 1,
    .confirmReceipt 20 1 9, .createTransfer ⟨1, "station", 3, "warehouse", 6⟩ 9]

theorem transfers_final_sample :
    Along step Fine ⟨depot, []⟩ roundTrip ∧ ∀ p q r, roundTrip = p ++ q ++ r →
      Sound (run step ⟨depot, []⟩ p) ∧
        Final (run step ⟨depot, []⟩ p) (run step ⟨depot, []⟩ (p ++ q)) := by
  have hfine : Along step Fine ⟨depot, []⟩ roundTrip :=
    ⟨by unfold Fine; decide +kernel, trivial, fun _ => by decide +kernel, trivial,
      fun _ => by decide +kernel, trivial⟩
  exact ⟨hfine, (transfers_final_iff depot depot_single roundTrip).mpr hfine⟩

/-- The transfer is put on a manifest after it was received, and received again. -/
def receivedTwice : List Operation :=
  [.checkAndTriggerRestock 3 2, .confirmReceipt 20 1 9, .createManifest 8 none,
    .addTransferToManifest 1 1, .confirmReceipt 30 1 9]

theorem received_twice :
    ¬ ∀ p q r, receivedTwice = p ++ q ++ r → Sound (run step ⟨depot, []⟩ p) ∧
      Final (run step ⟨depot, []⟩ p) (run step ⟨depot, []⟩ (p ++ q)) := by
  intro h
  have honce := (h receivedTwice [] [] rfl).1.once
  have hmoved : (run step ⟨depot, []⟩ receivedTwice).moved = [1, 1] := by decide +kernel
  rw [hmoved] at honce
  exact absurd honce (by decide)

end WezuBackend.Inventory.ManifestTrips
