import WezuBackend.Inventory.Service
import WezuBackend.Lib.RowMaps
import WezuBackend.Lib.Runs

/-!
# Every way to write a battery's status or place

`Op` is a call to one of the operations that write batteries: a caller of `apply_battery_transition`
with whatever arguments, a battery that is taken in from a manifest, and the operations that write
the columns themselves.  A request that moves several batteries is several calls.

Each call that creates no battery rewrites the rows one by one: `transitionStep_rewrites`,
`rewrites_bulkRounds`, `updateBatteryStatus_rewrites` and `confirmReceipt_cases` say how.
-/

namespace WezuBackend.Inventory.Operations

open Lib.Tables Lib.RowMaps Core.Letters
open Fleet.Model Fleet.Consistency Fleet.Transitions Inventory.Service

inductive Op where
  /-- a transition; `keeps` where the caller commits though it has raised -/
  | transition (now batteryId : ℕ) (args : Transition) (keeps : Bool)
  /-- a battery that a manifest brings in -/
  | intake (now : ℕ) (serial : String) (warehouseId : ℕ) (actorId : Option ℕ)
  | updateBatteryStatus (now dealerId batteryId : ℕ) (newStatus : String) (reason : Option String)
      (userId : Option ℕ)
  | bulkUpdateStatus (now dealerId : ℕ) (batteryIds : List ℕ) (newStatus : String)
      (reason : Option String) (userId : Option ℕ)
  | addBattery (now dealerId : ℕ) (serialNumber : String) (stationId : ℕ) (modelId : Option ℕ)
      (purchasePrice : ℚ) (userId : Option ℕ)
  | confirmReceipt (now transferId actorId : ℕ)

/-- The row of a battery that `_get_or_create_battery` creates. -/
def intakeBattery (now : ℕ) (serial : String) (warehouseId id : ℕ) : Battery where
  id := id
  serialNumber := serial
  status := .available
  locationType := some .warehouse
  locationId := some warehouseId
  updatedAt := now

/-- A battery created in a request of its own. -/
def intakeStep (now : ℕ) (serial : String) (warehouseId : ℕ) (actorId : Option ℕ) (db : Db) : Db :=
  let created :=
    { db with
      batteries := db.batteries.add (intakeBattery now serial warehouseId)
      batteryLifecycleEvents := db.batteryLifecycleEvents.add fun id =>
        { id, batteryId := db.batteries.freshKey, eventType := "created",
          description :=
            some s!"Created from manifest processing at warehouse #{warehouseId}",
          actorId, timestamp := now } }
  if UniqueIndexes created then created else db

section

variable [Casing]

/-- A transition in a request of its own. -/
def transitionStep (now batteryId : ℕ) (args : Transition) (keeps : Bool) (db : Db) : Db :=
  match db.batteries.get? batteryId with
  | none => db
  | some battery =>
    match applyBatteryTransition now battery args (.fresh db) with
    | (.ok _, t) => if UniqueIndexes t.working then t.working else db
    | (.error _, t) => if keeps = true ∧ UniqueIndexes t.working then t.working else db

/-- The store after a call. -/
def step (s : Store) : Op → Store
  | .transition now batteryId args keeps =>
    { s with fleet := transitionStep now batteryId args keeps s.fleet }
  | .intake now serial warehouseId actorId =>
    { s with fleet := intakeStep now serial warehouseId actorId s.fleet }
  | .updateBatteryStatus now dealerId batteryId newStatus reason userId =>
    ((updateBatteryStatus now dealerId batteryId newStatus reason userId).call s).2
  | .bulkUpdateStatus now dealerId batteryIds newStatus reason userId =>
    ((bulkUpdateStatus now dealerId batteryIds newStatus reason userId).call s).2
  | .addBattery now dealerId serialNumber stationId modelId purchasePrice userId =>
    ((addBattery now dealerId serialNumber stationId modelId purchasePrice userId).call s).2
  | .confirmReceipt now transferId actorId => ((confirmReceipt now transferId actorId).call s).2

end

/-! ## Rows rewritten -/

def replaced (b' : Battery) (b : Battery) : Battery := if b.id = b'.id then b' else b

theorem rewrites_replaced (batteries : Table Battery) (y : Battery) :
    Rewrites batteries (batteries.set y) (replaced y) := rewrites_set batteries y

theorem forall_replaced {batteries : Table Battery} {b y : Battery} (hb : b ∈ batteries)
    (hid : y.id = b.id) {P : Battery → Battery → Prop} (hrefl : ∀ x, P x x) :
    (∀ x ∈ batteries, P x (replaced y x)) ↔ P b y := by
  constructor
  · intro hall
    have hself := hall b hb
    rwa [replaced, if_pos hid.symm] at hself
  · intro h x hx
    unfold replaced
    split_ifs with hxid
    · rwa [Table.eq_of_key hx hb (hxid.trans hid)]
    · exact hrefl x

theorem dealerBattery_eq_some {s : Store} {dealerId k : ℕ} {b : Battery} :
    dealerBattery s dealerId k = some b ↔
      (b ∈ s.fleet.batteries ∧ b.id = k) ∧ inDealerStations s dealerId b.stationId = true := by
  unfold dealerBattery
  rw [Option.filter_eq_some_iff, Table.get?_eq_some, key_battery]

/-- The row as a bulk update leaves it. -/
def bulkWritten (now : ℕ) (atDealer : Option ℕ → Bool) (ids : List ℕ) (status : BatteryStatus)
    (b : Battery) : Battery :=
  if b.id ∈ ids ∧ atDealer b.stationId then { b with status, updatedAt := now } else b

section

variable (now dealerId : ℕ) (newStatus : String) (status : BatteryStatus) (reason : Option String)
  (userId : Option ℕ) (s : Store)

theorem inDealerStations_bulkRound (k : ℕ) :
    inDealerStations (bulkRound now dealerId newStatus status reason userId s k) =
      inDealerStations s := by
  unfold bulkRound
  rcases dealerBattery s dealerId k with _ | b <;> rfl

theorem rewrites_bulkRound (k : ℕ) :
    Rewrites s.fleet.batteries
      (bulkRound now dealerId newStatus status reason userId s k).fleet.batteries
      (bulkWritten now (inDealerStations s dealerId) [k] status) := by
  unfold bulkRound
  rcases hk : dealerBattery s dealerId k with _ | battery
  · refine (rewrites_refl _).congr fun b hb => ?_
    have hno : ¬ (b.id ∈ [k] ∧ inDealerStations s dealerId b.stationId = true) := by
      rintro ⟨hid, hstation⟩
      have hb' := dealerBattery_eq_some.mpr ⟨⟨hb, List.mem_singleton.mp hid⟩, hstation⟩
      rw [hk] at hb'
      cases hb'
    rw [bulkWritten, if_neg hno]
    rfl
  · obtain ⟨⟨hmem, rfl⟩, hstation⟩ := dealerBattery_eq_some.mp hk
    refine (rewrites_replaced _ { battery with status, updatedAt := now }).congr fun b hb => ?_
    unfold replaced bulkWritten
    by_cases hid : b.id = battery.id
    · have hsame : b = battery := Table.eq_of_key hb hmem hid
      rw [if_pos hid, if_pos ⟨List.mem_singleton.mpr hid, hsame ▸ hstation⟩, hsame]
    · rw [if_neg hid, if_neg fun h => hid (List.mem_singleton.mp h.1)]

theorem rewrites_bulkRounds (ids : List ℕ) :
    Rewrites s.fleet.batteries
      (ids.foldl (bulkRound now dealerId newStatus status reason userId) s).fleet.batteries
      (bulkWritten now (inDealerStations s dealerId) ids status) := by
  induction ids generalizing s with
  | nil =>
    refine (rewrites_refl _).congr fun b _ => ?_
    rw [bulkWritten, if_neg fun h => List.not_mem_nil h.1]
    rfl
  | cons k ids ih =>
    rw [List.foldl_cons]
    have hround := rewrites_bulkRound now dealerId newStatus status reason userId s k
    have hrest := ih (bulkRound now dealerId newStatus status reason userId s k)
    rw [inDealerStations_bulkRound] at hrest
    refine (hround.trans hrest).congr fun b _ => ?_
    unfold bulkWritten
    by_cases hstation : inDealerStations s dealerId b.stationId = true
    · by_cases hk : b.id = k <;> by_cases hids : b.id ∈ ids <;> simp [hk, hids, hstation]
    · simp [hstation]

end

theorem updateBatteryStatus_rewrites (now dealerId batteryId : ℕ) (newStatus : String)
    (reason : Option String) (userId : Option ℕ) (s : Store) :
    Rewrites s.fleet.batteries
      ((updateBatteryStatus now dealerId batteryId newStatus reason userId).call
        s).2.fleet.batteries
      (match mappedStatus newStatus with
        | none => id
        | some status => bulkWritten now (inDealerStations s dealerId) [batteryId] status) := by
  rcases updateBatteryStatus_call now dealerId batteryId newStatus reason userId s with
    ⟨battery, status, hbattery, hstatus, hcall⟩ | ⟨hnone, hcall⟩
  · rw [hcall, hstatus]
    have hround := rewrites_bulkRound now dealerId newStatus status reason userId s batteryId
    simp only [bulkRound, hbattery] at hround
    exact hround
  · rw [hcall]
    rcases hstatus : mappedStatus newStatus with _ | status
    · exact rewrites_refl _
    · rw [hstatus] at hnone
      have hround := rewrites_bulkRound now dealerId newStatus status reason userId s batteryId
      simp only [bulkRound, hnone.resolve_right (by simp)] at hround
      exact hround

theorem bulkUpdateStatus_rewrites (now dealerId : ℕ) (batteryIds : List ℕ) (newStatus : String)
    (reason : Option String) (userId : Option ℕ) (s : Store) :
    Rewrites s.fleet.batteries
      ((bulkUpdateStatus now dealerId batteryIds newStatus reason userId).call
        s).2.fleet.batteries
      (match mappedStatus newStatus with
        | none => id
        | some status => bulkWritten now (inDealerStations s dealerId) batteryIds status) := by
  rcases bulkUpdateStatus_call now dealerId batteryIds newStatus reason userId s with
    ⟨status, hstatus, hcall⟩ | ⟨hstatus, hcall⟩
  · rw [hcall, hstatus]
    exact rewrites_bulkRounds now dealerId newStatus status reason userId s batteryIds
  · rw [hcall, hstatus]
    exact rewrites_refl _

/-- A receipt delivers the battery of a transfer that is to be received, and does nothing else. -/
theorem confirmReceipt_cases (now transferId actorId : ℕ) (s : Store) :
    (∃ transfer battery, Receivable now transferId transfer battery s ∧
      ((confirmReceipt now transferId actorId).call s).2 =
        receiptStored now transferId actorId transfer battery s) ∨
    ((∀ transfer battery, ¬ Receivable now transferId transfer battery s) ∧
      ((confirmReceipt now transferId actorId).call s).2 = s) := by
  by_cases hex : ∃ transfer battery, Receivable now transferId transfer battery s
  · obtain ⟨transfer, battery, h⟩ := hex
    exact .inl ⟨transfer, battery, h, by rw [confirmReceipt_of_receivable h]⟩
  · push Not at hex
    refine .inr ⟨hex, ?_⟩
    by_cases hopen : ∀ transfer, s.batteryTransfers.get? transferId = some transfer →
        transfer.status ≠ "received"
    · obtain ⟨e, hcall⟩ := confirmReceipt_refused actorId hopen hex
      rw [hcall]
    · push Not at hopen
      obtain ⟨transfer, hfound, hreceived⟩ := hopen
      rw [confirmReceipt_of_received hfound hreceived]

section

variable [Casing]

theorem transitionStep_cases (now batteryId : ℕ) (args : Transition) (keeps : Bool) (db : Db) :
    transitionStep now batteryId args keeps db = db ∨
    (∃ b a, b ∈ db.batteries ∧ b.id = batteryId ∧
      Transitioned now args b a db (transitionStep now batteryId args keeps db)) ∨
    ∃ b ∈ db.batteries, b.id = batteryId ∧ transitionStep now batteryId args keeps db =
      { db with batteries := db.batteries.set (renamed now (normal b.serialNumber) b) } := by
  unfold transitionStep
  rcases hget : db.batteries.get? batteryId with _ | b
  · exact .inl rfl
  obtain ⟨hmem, hid⟩ := Table.get?_eq_some.mp hget
  dsimp only
  rcases hrun : applyBatteryTransition now b args (.fresh db) with ⟨e | b', t⟩
  · dsimp only
    split_ifs
    · rcases applyBatteryTransition_error hrun with rfl | rfl
      · exact .inl rfl
      · exact .inr (.inr ⟨b, hmem, hid, rfl⟩)
    · exact .inl rfl
  · obtain ⟨-, -, a, htransitioned⟩ := applyBatteryTransition_ok hrun
    dsimp only
    split_ifs
    · exact .inr (.inl ⟨b, a, hmem, hid, htransitioned⟩)
    · exact .inl rfl

/-- The rows that a transition rewrites: one, to what the transition makes of it, or to the same
row under another case and padding of its serial. -/
theorem transitionStep_rewrites (now batteryId : ℕ) (args : Transition) (keeps : Bool) (db : Db) :
    ∃ f : Battery → Battery,
      Rewrites db.batteries (transitionStep now batteryId args keeps db).batteries f ∧
      ∀ b ∈ db.batteries, f b = b ∨ f b = renamed now (normal b.serialNumber) b ∨
        f b = outcome now args b ∧
          ∃ a, Transitioned now args b a db (transitionStep now batteryId args keeps db) := by
  rcases transitionStep_cases now batteryId args keeps db with h | ⟨b, a, hb, -, h⟩ | ⟨b, hb, -, h⟩
  · rw [h]
    exact ⟨id, rewrites_refl _, fun b _ => .inl rfl⟩
  · refine ⟨replaced (outcome now args b), ?_, ?_⟩
    · rw [h.batteries]
      exact rewrites_replaced _ _
    · exact (forall_replaced hb (outcome_id _ _ _) (P := fun x y => y = x ∨
        y = renamed now (normal x.serialNumber) x ∨ y = outcome now args x ∧
          ∃ a, Transitioned now args x a db (transitionStep now batteryId args keeps db))
        fun x => .inl rfl).mpr (.inr (.inr ⟨rfl, a, h⟩))
  · rw [h]
    refine ⟨replaced (renamed now (normal b.serialNumber) b), rewrites_replaced _ _, ?_⟩
    exact (forall_replaced (y := renamed now (normal b.serialNumber) b) hb rfl
      (P := fun x y => y = x ∨ y = renamed now (normal x.serialNumber) x ∨
        y = outcome now args x ∧ ∃ a, Transitioned now args x a db _)
      fun x => .inl rfl).mpr (.inr (.inl rfl))

end

end WezuBackend.Inventory.Operations
