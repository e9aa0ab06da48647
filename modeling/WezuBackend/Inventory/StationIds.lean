import WezuBackend.Inventory.Operations

/-!
# The two records of a battery's station

A battery that is at a station is so by its place and by its `station_id`; bookings go by the one,
rentals by the other.  `apply_battery_transition`, the receipt of a transfer and the intake of a
manifest write both.  A dealer's new battery gets its `station_id` and the place of a battery that
is in no particular warehouse: the records agree throughout a run if and only if no battery is added
that way (`station_ids_iff`).
-/

namespace WezuBackend.Inventory.StationIds

open Lib.Tables Lib.Runs Lib.RowMaps Core.Letters Fleet.Model Fleet.Consistency Fleet.Transitions
open Inventory.Service Inventory.Operations

/-- The two records of the battery's station agree. -/
def InStep (b : Battery) : Prop :=
  ∀ k, b.stationId = some k ↔ b.locationType = some .station ∧ b.locationId = some k

def StationIdsAgree (s : Store) : Prop := ∀ b ∈ s.fleet.batteries, InStep b

/-- A query by `station_id`, and a query by place. -/
def byStationId (s : Store) (stationId : ℕ) : List Battery :=
  s.fleet.batteries.filter fun b => b.stationId = some stationId

def byLocation (s : Store) (stationId : ℕ) : List Battery :=
  s.fleet.batteries.filter fun b =>
    b.locationType = some .station ∧ b.locationId = some stationId

/-- The call adds no battery of a dealer. -/
def AddsNone (s : Store) : Op → Prop
  | .addBattery _ dealerId serialNumber stationId modelId _ _ =>
    ¬ Addable dealerId serialNumber stationId modelId s
  | _ => True

/-- The two queries select the same batteries, if the records agree. -/
theorem StationIdsAgree.queries {s : Store} (h : StationIdsAgree s) (k : ℕ) :
    byStationId s k = byLocation s k := by
  refine List.filter_congr fun b hb => ?_
  rw [decide_eq_decide]
  exact h b hb k

/-! ## Rows -/

variable {b : Battery} {now : ℕ}

theorem inStep_delivered {transfer : BatteryTransfer} (h : InStep b) :
    InStep (delivered now transfer b) := by
  unfold InStep delivered
  dsimp only
  split_ifs
  · simp
  · simp
  · exact h

variable {atDealer : Option ℕ → Bool} {ids : List ℕ}

theorem inStep_bulkWritten {status : BatteryStatus} (h : InStep b) :
    InStep (bulkWritten now atDealer ids status b) := by
  unfold bulkWritten
  split_ifs
  · exact h
  · exact h

theorem inStep_newBattery {serialNumber : String} {stationId : ℕ} {modelId : Option ℕ}
    {purchasePrice : ℚ} {id : ℕ} :
    ¬ InStep (newBattery now serialNumber stationId modelId purchasePrice id) := by
  intro h
  obtain ⟨hplace, -⟩ := (h stationId).mp rfl
  cases hplace

theorem inStep_dealer {s s' : Store} {mapped : Option BatteryStatus} (h : StationIdsAgree s)
    (hrewrites : Rewrites s.fleet.batteries s'.fleet.batteries
      (match mapped with
        | none => id
        | some status => bulkWritten now atDealer ids status)) : StationIdsAgree s' := by
  refine hrewrites.forall_mem.mpr fun b hb => ?_
  rcases mapped with _ | status
  · exact h b hb
  · exact inStep_bulkWritten (h b hb)

section

variable [Casing]

theorem inStep_outcome {args : Transition} {a : Option ShelfBattery}
    {db db' : Db} (h : Transitioned now args b a db db') : InStep (outcome now args b) := by
  intro k
  rw [h.outcome_station]
  by_cases htype : (outcome now args b).locationType = some .station
  · rw [if_pos htype]
    exact (and_iff_right htype).symm
  · rw [if_neg htype]
    exact iff_of_false (by simp) fun hplace => htype hplace.1

/-! ## One call -/

/-- **One call** keeps the records in agreement exactly if it adds no battery of a dealer. -/
theorem step_agrees_iff (s : Store) (o : Op) (h : StationIdsAgree s) :
    StationIdsAgree (step s o) ↔ AddsNone s o := by
  cases o with
  | transition now batteryId args keeps =>
    refine iff_of_true ?_ trivial
    obtain ⟨f, hf, hrows⟩ := transitionStep_rewrites now batteryId args keeps s.fleet
    refine hf.forall_mem.mpr fun b hb => ?_
    rcases hrows b hb with heq | heq | ⟨heq, a, htransitioned⟩
    · rw [heq]
      exact h b hb
    · rw [heq]
      exact h b hb
    · rw [heq]
      exact inStep_outcome htransitioned
  | intake now serial warehouseId actorId =>
    refine iff_of_true (fun b hb => ?_) trivial
    dsimp only [step, intakeStep] at hb
    split_ifs at hb
    · rcases (Table.mem_add_mk fun _ => rfl).mp hb with hb | rfl
      · exact h b hb
      · simp [InStep, intakeBattery]
    · exact h b hb
  | updateBatteryStatus now dealerId batteryId newStatus reason userId =>
    refine iff_of_true ?_ trivial
    exact inStep_dealer h
      (updateBatteryStatus_rewrites now dealerId batteryId newStatus reason userId s)
  | bulkUpdateStatus now dealerId batteryIds newStatus reason userId =>
    refine iff_of_true ?_ trivial
    exact inStep_dealer h
      (bulkUpdateStatus_rewrites now dealerId batteryIds newStatus reason userId s)
  | addBattery now dealerId serialNumber stationId modelId purchasePrice userId =>
    dsimp only [step, AddsNone, StationIdsAgree]
    rcases addBattery_call now dealerId serialNumber stationId modelId purchasePrice userId s with
      ⟨hadd, hcall⟩ | ⟨hno, hcall⟩
    · rw [hcall]
      refine iff_of_false (fun hall => ?_) (not_not.mpr hadd)
      exact inStep_newBattery (hall _ ((Table.mem_add_mk fun _ => rfl).mpr (.inr rfl)))
    · rw [hcall]
      exact iff_of_true h hno
  | confirmReceipt now transferId actorId =>
    refine iff_of_true ?_ trivial
    dsimp only [step, StationIdsAgree]
    rcases confirmReceipt_cases now transferId actorId s with ⟨transfer, b, hb, hcall⟩ | ⟨-, hcall⟩
    · rw [hcall]
      have hrewrites := rewrites_replaced s.fleet.batteries (delivered now transfer b)
      refine hrewrites.forall_mem.mpr fun x hx => ?_
      unfold replaced
      split_ifs
      · exact inStep_delivered (h b hb.mem)
      · exact h x hx
    · rw [hcall]
      exact h

/-! ## Runs -/

/-- **The two records agree** in every state of a run, and the queries by either select the same
batteries, exactly if no call of the run adds a battery of a dealer. -/
theorem station_ids_iff (s : Store) (h : StationIdsAgree s) (ops : List Op) :
    (∀ p q, ops = p ++ q → StationIdsAgree (run step s p) ∧
      ∀ k, byStationId (run step s p) k = byLocation (run step s p) k) ↔
      Along step AddsNone s ops := by
  rw [← invariant_iff_along step_agrees_iff h ops]
  constructor
  · exact fun hall p q hp => (hall p q hp).1
  · exact fun hall p q hp => ⟨hall p q hp, (hall p q hp).queries⟩

end

def storedBattery : Battery where
  id := 1
  serialNumber := "B1"
  locationId := some 2

/-- A dealer's station, and a battery in a warehouse that is sent there. -/
def dealerStore : Store where
  fleet :=
    { batteries := ⟨[storedBattery], List.nodup_singleton _⟩
      stations := ⟨[{ id := 4 }, { id := 5 }], by decide⟩ }
  batteryTransfers := ⟨[{ id := 9, batteryId := 1, fromLocationType := "warehouse",
                          fromLocationId := 2, toLocationType := "station", toLocationId := 4 }],
    List.nodup_singleton _⟩
  dealerOf := fun k => if k = 4 then some 3 else none

theorem dealerStore_agrees : StationIdsAgree dealerStore := by
  intro b hb
  obtain rfl : b = storedBattery := List.mem_singleton.mp hb
  simp [InStep, storedBattery]

/-- The battery arrives, and both queries find it. -/
theorem station_ids_sample :
    (byStationId (run step dealerStore [.confirmReceipt 5 9 2]) 4).length = 1 ∧
      ∀ p q, [Op.confirmReceipt 5 9 2] = p ++ q → StationIdsAgree (run step dealerStore p) ∧
        ∀ k, byStationId (run step dealerStore p) k = byLocation (run step dealerStore p) k :=
  ⟨by decide +kernel, (station_ids_iff dealerStore dealerStore_agrees [.confirmReceipt 5 9 2]).mpr
    ⟨trivial, trivial⟩⟩

/-- The battery that a dealer adds to the station is found by its `station_id` and not by its
place. -/
theorem dealer_battery_nowhere : ¬ ∀ (s : Store) (ops : List Op), StationIdsAgree s →
    StationIdsAgree (run step s ops) := by
  intro hall
  have hagree := hall dealerStore [.addBattery 5 3 "B2" 4 none 0 none] dealerStore_agrees
  have hqueries := hagree.queries 4
  have hfound : (byStationId (run step dealerStore [.addBattery 5 3 "B2" 4 none 0 none])
      4).length = 1 := by decide +kernel
  have hmissed : (byLocation (run step dealerStore [.addBattery 5 3 "B2" 4 none 0 none])
      4).length = 0 := by decide +kernel
  rw [hqueries, hmissed] at hfound
  cases hfound

end WezuBackend.Inventory.StationIds
