import WezuBackend.Inventory.Operations

/-!
# Retirement

`apply_battery_transition` lets no battery leave the retired status.  The dealer portal and the
receipt of a transfer write the status themselves and do not ask: a retired battery stays retired if
and only if no dealer gives it another status and no transfer of it is received
(`retired_absorbing_iff`).
-/

namespace WezuBackend.Inventory.Retirement

open Lib.Tables Lib.Runs Core.Letters Fleet.Model Fleet.Transitions
open Inventory.Service Inventory.Operations

def Retired (s : Store) (batteryId : ℕ) : Prop :=
  ∃ b, s.fleet.batteries.get? batteryId = some b ∧ b.status = .retired

/-- A dealer that asks for another status for these batteries names none of its retired ones. -/
def SparesDealers (s : Store) (dealerId : ℕ) (batteryIds : List ℕ) (newStatus : String) : Prop :=
  ∀ status, mappedStatus newStatus = some status → status ≠ .retired →
    ∀ b ∈ s.fleet.batteries, b.id ∈ batteryIds → inDealerStations s dealerId b.stationId = true →
      b.status ≠ .retired

/-- The call writes no other status over a retired one. -/
def SparesRetired (s : Store) : Op → Prop
  | .updateBatteryStatus _ dealerId batteryId newStatus _ _ =>
    SparesDealers s dealerId [batteryId] newStatus
  | .bulkUpdateStatus _ dealerId batteryIds newStatus _ _ =>
    SparesDealers s dealerId batteryIds newStatus
  | .confirmReceipt now transferId _ =>
    ∀ transfer battery, Receivable now transferId transfer battery s → battery.status ≠ .retired
  | _ => True

/-! ## One call -/

theorem bulkWritten_spares {s : Store} {dealerId : ℕ} {ids : List ℕ} {newStatus : String}
    (now : ℕ) :
    (∀ b ∈ s.fleet.batteries, b.status = .retired →
      ((match mappedStatus newStatus with
        | none => id
        | some status => bulkWritten now (inDealerStations s dealerId) ids status) b).status =
          .retired) ↔ SparesDealers s dealerId ids newStatus := by
  unfold SparesDealers
  rcases mappedStatus newStatus with _ | status
  · simp
  · dsimp only [bulkWritten]
    constructor
    · rintro hall status' ⟨⟩ hne b hb hid hstation hretired
      have hwritten := hall b hb hretired
      rw [if_pos ⟨hid, hstation⟩] at hwritten
      exact hne hwritten
    · intro hspares b hb hretired
      split_ifs with hc
      · by_contra hne
        exact hspares status rfl hne b hb hc.1 hc.2 hretired
      · exact hretired

theorem retired_add {batteries : Table Battery} {mk : ℕ → Battery} (hmk : ∀ k, (mk k).id = k)
    {k : ℕ} (h : ∃ b, batteries.get? k = some b ∧ b.status = .retired) :
    ∃ b, (batteries.add mk hmk).get? k = some b ∧ b.status = .retired := by
  obtain ⟨b, hb, hretired⟩ := h
  exact ⟨b, Table.get?_add_of_some hb, hretired⟩

section

variable [Casing]

/-- **One call** leaves every retired battery retired exactly if it spares them. -/
theorem step_spares_iff (s : Store) (o : Op) :
    (∀ k, Retired s k → Retired (step s o) k) ↔ SparesRetired s o := by
  cases o with
  | transition now batteryId args keeps =>
    refine iff_of_true ?_ trivial
    obtain ⟨f, hf, hrows⟩ := transitionStep_rewrites now batteryId args keeps s.fleet
    refine (hf.kept_iff (P := fun b => b.status = .retired)).mpr fun b hb hretired => ?_
    rcases hrows b hb with h | h | ⟨h, a, htransitioned⟩
    · rw [h, hretired]
    · rw [h]
      exact hretired
    · rw [h, outcome_status, htransitioned.unretired hretired]
  | intake now serial warehouseId actorId =>
    refine iff_of_true (fun k hk => ?_) trivial
    dsimp only [step, intakeStep, Retired]
    split_ifs
    · exact retired_add (fun _ => rfl) hk
    · exact hk
  | updateBatteryStatus now dealerId batteryId newStatus reason userId =>
    have hrewrites := updateBatteryStatus_rewrites now dealerId batteryId newStatus reason userId s
    exact hrewrites.kept_iff.trans (bulkWritten_spares now)
  | bulkUpdateStatus now dealerId batteryIds newStatus reason userId =>
    have hrewrites := bulkUpdateStatus_rewrites now dealerId batteryIds newStatus reason userId s
    exact hrewrites.kept_iff.trans (bulkWritten_spares now)
  | addBattery now dealerId serialNumber stationId modelId purchasePrice userId =>
    refine iff_of_true (fun k hk => ?_) trivial
    dsimp only [step, Retired]
    rcases addBattery_call now dealerId serialNumber stationId modelId purchasePrice userId s with
      ⟨-, hcall⟩ | ⟨-, hcall⟩
    · rw [hcall]
      exact retired_add (fun _ => rfl) hk
    · rw [hcall]
      exact hk
  | confirmReceipt now transferId actorId =>
    dsimp only [step, SparesRetired]
    rcases confirmReceipt_cases now transferId actorId s with ⟨transfer, b, h, hcall⟩ | ⟨hno, hcall⟩
    · rw [hcall]
      have hrewrites := rewrites_replaced s.fleet.batteries (delivered now transfer b)
      refine (hrewrites.kept_iff (P := fun b => b.status = .retired)).trans ?_
      rw [forall_replaced h.mem (delivered_id now transfer b)
        (P := fun x y => x.status = .retired → y.status = .retired) fun _ hx => hx]
      constructor
      · intro hkept transfer' b' h' hretired
        obtain ⟨-, rfl⟩ := h.unique h'
        have hstatus := hkept hretired
        rw [delivered_status] at hstatus
        cases hstatus
      · exact fun hspares hretired => absurd hretired (hspares transfer b h)
    · rw [hcall]
      exact iff_of_true (fun _ hk => hk) fun transfer b h => absurd h (hno transfer b)

/-! ## Runs -/

/-- **Retirement is for good** in a run, from any state, exactly if every call of the run spares the
batteries that are retired when it comes. -/
theorem retired_absorbing_iff (s : Store) (ops : List Op) :
    (∀ p q r k, ops = p ++ q ++ r → Retired (run step s p) k → Retired (run step s (p ++ q)) k) ↔
      Along step SparesRetired s ops := by
  rw [← kept_iff_along (J := fun _ => True) (I := fun _ => True)
    (R := fun t t' => ∀ k, Retired t k → Retired t' k) (fun _ _ h => h)
    (fun h h' k hk => h' k (h k hk)) (fun _ _ _ _ => trivial)
    (fun t o _ _ => (and_iff_right trivial).trans (step_spares_iff t o)) trivial trivial]
  constructor
  · exact fun h p q r hp => ⟨trivial, fun k => h p q r k hp⟩
  · exact fun h p q r k hp => (h p q r hp).2 k

end

def retiredBattery : Battery where
  id := 1
  serialNumber := "B1"
  stationId := some 4
  status := .retired
  locationType := some .station
  locationId := some 4

/-- A retired battery at a dealer's station. -/
def retiredStore : Store where
  fleet :=
    { batteries := ⟨[retiredBattery], List.nodup_singleton _⟩
      stations := ⟨[{ id := 4 }], List.nodup_singleton _⟩ }
  dealerOf := fun _ => some 3

/-- The dealer makes the battery available again. -/
theorem retired_battery_available : ¬ ∀ (s : Store) (ops p q : List Op) (k : ℕ), ops = p ++ q →
    Retired (run step s p) k → Retired (run step s ops) k := by
  intro hall
  obtain ⟨b, hb, hstatus⟩ := hall retiredStore
    [.updateBatteryStatus 5 3 1 "available" none none] [] _ 1 rfl ⟨retiredBattery, rfl, rfl⟩
  have havailable : ((run step retiredStore
      [.updateBatteryStatus 5 3 1 "available" none none]).fleet.batteries.get? 1).map
        Battery.status = some .available := by decide +kernel
  rw [hb, Option.map_some, hstatus] at havailable
  cases havailable

end WezuBackend.Inventory.Retirement
