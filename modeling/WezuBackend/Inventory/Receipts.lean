import WezuBackend.Inventory.Service
import WezuBackend.Fleet.Shelf
import WezuBackend.Lib.RowMaps

/-!
# The receipt of a transfer beside the shelf rows and the orders

`confirm_receipt` moves a battery without a look at its shelf row or at the orders it belongs to.  A
receipt leaves the shelf rows in step, is refused while an active order has the battery, and can be
repeated, exactly if it is refused for another reason, or no active order has the battery and,
unless the transfer was received before, the battery does not leave a shelf (`receipt_iff`).
-/

namespace WezuBackend.Inventory.Receipts

open Lib.Tables Lib.RowMaps Core.Letters Fleet.Model Fleet.Consistency
open Fleet.Shelf Inventory.Service

section

variable [Casing]

def InActiveOrder (s : Store) (transferId : ℕ) : Prop :=
  ∃ transfer battery, s.batteryTransfers.get? transferId = some transfer ∧
    s.fleet.batteries.get? transfer.batteryId = some battery ∧
    orderConflicts s.fleet [normal battery.serialNumber] none ≠ []

structure KeepsConsistent (now transferId actorId : ℕ) (s : Store) : Prop where
  shelves : ShelfInvariant ((confirmReceipt now transferId actorId).call s).2.fleet
  locked : InActiveOrder s transferId →
    ∃ e, ((confirmReceipt now transferId actorId).call s).1 = .error e
  repeated : ∀ now' actorId',
    ((confirmReceipt now' transferId actorId').call
      ((confirmReceipt now transferId actorId).call s).2).2 =
        ((confirmReceipt now transferId actorId).call s).2

/-- The receipt is refused: the transfer is not known, or it was not received before and its battery
is not known or its station does not exist. -/
def Refused (now transferId : ℕ) (s : Store) : Prop :=
  (∀ transfer, s.batteryTransfers.get? transferId = some transfer →
    transfer.status ≠ "received") ∧
  ∀ transfer battery, ¬ Receivable now transferId transfer battery s

/-- The transfer brings its battery to a station or a warehouse. -/
def Relocates (transfer : BatteryTransfer) : Prop :=
  transfer.toLocationType = "station" ∨ transfer.toLocationType = "warehouse"

/-- The receipt does not take the battery from a shelf. -/
def LeavesShelves (now transferId : ℕ) (s : Store) : Prop :=
  ∀ transfer battery, Receivable now transferId transfer battery s → Relocates transfer →
    battery.locationType ≠ some .shelf

/-! ## The shelf rows -/

omit [Casing] in
theorem delivered_locationType (now : ℕ) (transfer : BatteryTransfer) (b : Battery) :
    (Relocates transfer → (delivered now transfer b).locationType ≠ some .shelf) ∧
      (¬ Relocates transfer → (delivered now transfer b).locationType = b.locationType ∧
        (delivered now transfer b).locationId = b.locationId) := by
  unfold Relocates delivered
  dsimp only
  split_ifs with hstation hwarehouse
  · simp [hstation]
  · simp [hwarehouse]
  · simp [hstation, hwarehouse]

variable {b : Battery} {transfer : BatteryTransfer}

theorem rowOf_delivered {now : ℕ} (r : ShelfBattery) :
    RowOf (delivered now transfer b) r ↔ RowOf b r :=
  RowOf.congr (by rw [delivered_serialNumber]) r

theorem shelfState_delivered_iff (now : ℕ) {rows : Table ShelfBattery} (h : ShelfState rows b) :
    ShelfState rows (delivered now transfer b) ↔
      (Relocates transfer → b.locationType ≠ some .shelf) := by
  obtain ⟨hmoved, hstays⟩ := delivered_locationType now transfer b
  have hrows : (∃ r ∈ rows, RowOf (delivered now transfer b) r) ↔ ∃ r ∈ rows, RowOf b r := by
    simp only [rowOf_delivered]
  constructor
  · intro hstate hrelocates hshelf
    have hrow := hrows.mpr (h.shelved.mpr hshelf)
    exact hmoved hrelocates (hstate.shelved.mp hrow)
  · intro hleaves
    by_cases hrelocates : Relocates transfer
    · have hnone : ¬ ∃ r ∈ rows, RowOf b r := fun hrow =>
        hleaves hrelocates (h.shelved.mp hrow)
      refine ⟨fun r hr r' _ hb => ?_, ?_, fun r hr hb => ?_⟩
      · exact absurd ⟨r, hr, (rowOf_delivered r).mp hb⟩ hnone
      · exact iff_of_false (fun hrow => hnone (hrows.mp hrow)) (hmoved hrelocates)
      · exact absurd ⟨r, hr, (rowOf_delivered r).mp hb⟩ hnone
    · obtain ⟨htype, hid⟩ := hstays hrelocates
      refine ⟨fun r hr r' hr' hb hb' => ?_, ?_, fun r hr hb => ?_⟩
      · exact h.once r hr r' hr' ((rowOf_delivered r).mp hb) ((rowOf_delivered r').mp hb')
      · rw [hrows, htype, h.shelved]
      · rw [hid, h.place r hr ((rowOf_delivered r).mp hb)]

/-- A delivery keeps the shelf rows in step exactly if it does not take the battery from a shelf. -/
theorem shelfInvariant_receipt_iff {now transferId actorId : ℕ}
    {s : Store} (h : Receivable now transferId transfer b s) (hinv : ShelfInvariant s.fleet) :
    ShelfInvariant (receiptStored now transferId actorId transfer b s).fleet ↔
      (Relocates transfer → b.locationType ≠ some .shelf) := by
  have hstate := hinv b h.mem
  rw [← shelfState_delivered_iff now hstate]
  have hrewrites : Rewrites s.fleet.batteries
      (receiptStored now transferId actorId transfer b s).fleet.batteries _ :=
    rewrites_set _ (delivered now transfer b)
  have hrows : (receiptStored now transferId actorId transfer b s).fleet.shelfBatteries =
      s.fleet.shelfBatteries := rfl
  unfold ShelfInvariant
  rw [hrewrites.forall_mem, hrows]
  constructor
  · intro hall
    have hid : Row.key b = Row.key (delivered now transfer b) := (delivered_id now transfer b).symm
    have hself := hall b h.mem
    rwa [if_pos hid] at hself
  · intro hdelivered x hx
    split_ifs
    · exact hdelivered
    · exact hinv x hx

/-! ## The receipt -/

omit [Casing] in
theorem receipt_repeated (now now' transferId actorId actorId' : ℕ) (s : Store) :
    ((confirmReceipt now' transferId actorId').call
      ((confirmReceipt now transferId actorId).call s).2).2 =
        ((confirmReceipt now transferId actorId).call s).2 := by
  by_cases hreceived : ∀ transfer, s.batteryTransfers.get? transferId = some transfer →
      transfer.status ≠ "received"
  · by_cases hex : ∃ transfer battery, Receivable now transferId transfer battery s
    · -- the transfer is stored as received
      obtain ⟨transfer, b, h⟩ := hex
      rw [confirmReceipt_of_receivable h]
      dsimp only
      obtain ⟨hmem, hid⟩ := Table.get?_eq_some.mp h.found
      have hget : s.batteryTransfers.get? transfer.id = some transfer := Table.get?_of_mem hmem
      have hstored : (receiptStored now transferId actorId transfer b s).batteryTransfers.get?
          transferId = some { transfer with status := "received", updatedAt := now } := by
        have hset := Table.get?_set_self (t := s.batteryTransfers)
          (r := { transfer with status := "received", updatedAt := now }) hget
        rw [← hid]
        exact hset
      rw [confirmReceipt_of_received hstored rfl]
    · push Not at hex
      obtain ⟨e, hcall⟩ := confirmReceipt_refused actorId hreceived hex
      rw [hcall]
      -- the second one fails at the same place: what decides does not depend on the time
      have hex' : ∀ transfer battery, ¬ Receivable now' transferId transfer battery s := by
        intro transfer battery h
        refine hex transfer battery ⟨h.found, h.unreceived, h.known, ?_⟩
        exact h.station
      obtain ⟨e', hcall'⟩ := confirmReceipt_refused actorId' hreceived hex'
      rw [hcall']
  · push Not at hreceived
    obtain ⟨transfer, hfound, hstatus⟩ := hreceived
    rw [confirmReceipt_of_received hfound hstatus]
    dsimp only
    rw [confirmReceipt_of_received hfound hstatus]

/-- **The receipt of a transfer** keeps inventory consistent exactly if it is refused, or if no
active order has the battery and it takes the battery from no shelf. -/
theorem receipt_iff (now transferId actorId : ℕ) (s : Store) (hinv : ShelfInvariant s.fleet) :
    KeepsConsistent now transferId actorId s ↔
      Refused now transferId s ∨
        (¬ InActiveOrder s transferId ∧ LeavesShelves now transferId s) := by
  have hrepeated := fun now' actorId' =>
    receipt_repeated now now' transferId actorId actorId' s
  by_cases hrefused : Refused now transferId s
  · obtain ⟨e, hcall⟩ := confirmReceipt_refused actorId hrefused.1 hrefused.2
    refine iff_of_true ⟨?_, fun _ => ⟨e, by rw [hcall]⟩, hrepeated⟩ (.inl hrefused)
    rw [hcall]
    exact hinv
  -- the call returns
  rw [or_iff_right hrefused]
  have hreturns : (∃ transfer, ((confirmReceipt now transferId actorId).call s).1 =
        .ok transfer) ∧
      (ShelfInvariant ((confirmReceipt now transferId actorId).call s).2.fleet ↔
        LeavesShelves now transferId s) := by
    by_cases hreceived : ∀ transfer, s.batteryTransfers.get? transferId = some transfer →
        transfer.status ≠ "received"
    · have hex : ∃ transfer battery, Receivable now transferId transfer battery s := by
        by_contra hno
        push Not at hno
        exact hrefused ⟨hreceived, hno⟩
      obtain ⟨transfer, b, h⟩ := hex
      rw [confirmReceipt_of_receivable h]
      refine ⟨⟨_, rfl⟩, (shelfInvariant_receipt_iff h hinv).trans ?_⟩
      constructor
      · intro hleaves transfer' b' h'
        obtain ⟨rfl, rfl⟩ := h.unique h'
        exact hleaves
      · exact fun hleaves => hleaves transfer b h
    · push Not at hreceived
      obtain ⟨transfer, hfound, hstatus⟩ := hreceived
      rw [confirmReceipt_of_received hfound hstatus]
      refine ⟨⟨_, rfl⟩, iff_of_true hinv fun transfer' b' h' => ?_⟩
      have hsame : transfer' = transfer := Option.some.inj (h'.found.symm.trans hfound)
      exact absurd (hsame ▸ hstatus) h'.unreceived
  obtain ⟨⟨transfer, hok⟩, hshelves⟩ := hreturns
  constructor
  · intro h
    refine ⟨fun hactive => ?_, hshelves.mp h.shelves⟩
    obtain ⟨e, herror⟩ := h.locked hactive
    rw [hok] at herror
    cases herror
  · rintro ⟨hinactive, hleaves⟩
    exact ⟨hshelves.mpr hleaves, fun hactive => absurd hactive hinactive, hrepeated⟩

end

/-- A battery on a shelf, and one beside it; each is sent to a station. -/
def shelvedStore : Store where
  fleet :=
    { batteries := ⟨[{ id := 1, serialNumber := "B1", locationType := some .shelf,
                       locationId := some 6 },
                     { id := 2, serialNumber := "B2", locationId := some 2 }], by decide⟩
      stations := ⟨[{ id := 4 }], by decide⟩
      shelfBatteries := ⟨[⟨1, 6, "B1"⟩], by decide⟩ }
  batteryTransfers := ⟨[{ id := 1, batteryId := 1, fromLocationType := "warehouse",
                          fromLocationId := 2, toLocationType := "station", toLocationId := 4 },
                        { id := 2, batteryId := 2, fromLocationType := "warehouse",
                          fromLocationId := 2, toLocationType := "station", toLocationId := 4 }],
    by decide⟩

theorem receipt_sample : ((confirmReceipt 5 2 7).call shelvedStore).1.isOk = true ∧
    (KeepsConsistent 5 2 7 shelvedStore ↔ Refused 5 2 shelvedStore ∨
      (¬ InActiveOrder shelvedStore 2 ∧ LeavesShelves 5 2 shelvedStore)) :=
  ⟨by decide +kernel, receipt_iff 5 2 7 shelvedStore (by decide)⟩

/-- The battery that was on the shelf is at the station, and its shelf row is still there. -/
theorem receipt_leaves_shelf_row : ¬ ∀ (now transferId actorId : ℕ) (s : Store),
    ShelfInvariant s.fleet → KeepsConsistent now transferId actorId s := by
  intro hall
  have hkeeps := (hall 5 1 7 shelvedStore (by decide)).shelves
  have hbroken : ¬ ShelfInvariant ((confirmReceipt 5 1 7).call shelvedStore).2.fleet := by
    decide +kernel
  exact hbroken hkeeps

end WezuBackend.Inventory.Receipts
