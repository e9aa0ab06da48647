import WezuBackend.Core.Amounts
import WezuBackend.Core.Calendar
import WezuBackend.Lib.Sorting
import Mathlib.Tactic.Linarith

/-!
# The charging queue of a station

`prioritize_charging` ranks the batteries of a station by one score, and `reprioritize_queue` adds
1000 to the score of the urgent ones and sorts again.  A reservation is worth 1000, too: a reserved
battery that is not urgent can stay before an urgent one (`reprioritize_queue_iff`).

`get_charging_queue` reads `slot.battery`, which the table of the slots does not have, so that it
raises as soon as a slot of the station is charging.  What that attribute gives is a parameter here;
`slotBattery` is what it gives today.
-/

namespace WezuBackend.Fleet.ChargingQueue

open Lib.Tables Lib.Sorting Core.Base Core.Amounts Core.Calendar

/-! ## Rows -/

structure Battery where
  id : ℕ
  currentCharge : ℚ := 100
  healthPercentage : ℚ := 100
  deriving DecidableEq, Repr

structure StationSlot where
  id : ℕ
  stationId : ℕ
  status : String := "empty"
  batteryId : Option ℕ := none
  deriving DecidableEq, Repr

instance : Row StationSlot ℕ := ⟨StationSlot.id⟩

structure BatteryReservation where
  id : ℕ
  stationId : ℕ
  batteryId : Option ℕ := none
  startTime : ℤ
  endTime : ℤ
  status : String := "PENDING"
  deriving DecidableEq, Repr

instance : Row BatteryReservation ℕ := ⟨BatteryReservation.id⟩

structure Db where
  slots : Table StationSlot := .empty
  reservations : Table BatteryReservation := .empty

structure OptimizationBattery where
  batteryId : String
  currentCharge : ℚ
  stateOfHealth : ℚ
  deriving DecidableEq, Repr

structure OptimizedQueueItem where
  batteryId : String
  priorityScore : ℚ
  queuePosition : ℕ
  estimatedCompletionTime : Option ℤ := none
  deriving DecidableEq, Repr

/-! ## The score -/

def getEnergyCostMultiplier (now : ℤ) : ℚ :=
  if 23 ≤ hourOf now ∨ hourOf now ≤ 6 then 1 / 2
  else if 18 ≤ hourOf now ∧ hourOf now ≤ 22 then 3 / 2
  else 1

def predictDemand (db : Db) (stationId : ℕ) (startTime endTime : ℤ) : ℚ :=
  let reservations := db.reservations.filter fun r =>
    r.stationId = stationId ∧ r.status = "PENDING" ∧ r.startTime ≤ endTime ∧ startTime ≤ r.endTime
  let baseDemand : ℚ :=
    if 8 ≤ hourOf startTime ∧ hourOf startTime ≤ 10 ∨
      17 ≤ hourOf startTime ∧ hourOf startTime ≤ 19 then 2 else 1 / 2
  reservations.length + baseDemand

/-- The battery is reserved within two hours. -/
def reserved (db : Db) (now : ℤ) (batteryId : String) : Bool :=
  (db.reservations.find? fun r => r.batteryId.map toString = some batteryId ∧
    r.status = "PENDING" ∧ r.startTime ≤ now + 2 * hour).isSome

/-- How much the battery needs to be charged; energy that is dear halves it for a battery that
nobody waits for. -/
def baseScore (db : Db) (now : ℤ) (b : OptimizationBattery) : ℚ :=
  let baseScore := (100 - b.currentCharge) * (1 / 2)
  if 1 < getEnergyCostMultiplier now ∧ ¬ reserved db now b.batteryId then baseScore * (1 / 2)
  else baseScore

/-- The terms of the score that depend on the battery. -/
def standing (db : Db) (now : ℤ) (b : OptimizationBattery) : ℚ :=
  baseScore db now b + b.stateOfHealth * (1 / 5) +
    if reserved db now b.batteryId then 1000 else 0

def finalScore (db : Db) (now : ℤ) (stationId : ℕ) (b : OptimizationBattery) : ℚ :=
  standing db now b + predictDemand db stationId now (now + 2 * hour) * 10

/-! ## The queue -/

/-- `timedelta(minutes=minutes)`. -/
def microseconds (minutes : ℚ) : ℤ :=
  roundHalfEven (minutes * 60000000).num (minutes * 60000000).den

def batteryMap (batteries : List OptimizationBattery) (batteryId : String) :
    Option OptimizationBattery :=
  batteries.reverse.find? fun b => b.batteryId = batteryId

def estimatedCompletion (now : ℤ) (batteries : List OptimizationBattery) (batteryId : String)
    (i : ℕ) : Option ℤ :=
  (batteryMap batteries batteryId).map fun battery =>
    now + microseconds (max 0 (100 - battery.currentCharge) * (3 / 2) + 5 * i)

/-- The first `i` positions are taken. -/
def numbered (now : ℤ) (batteries : List OptimizationBattery) :
    ℕ → List (String × ℚ) → List OptimizedQueueItem
  | _, [] => []
  | i, item :: items =>
    { batteryId := item.1, priorityScore := item.2, queuePosition := i + 1
      estimatedCompletionTime := estimatedCompletion now batteries item.1 i } ::
      numbered now batteries (i + 1) items

def prioritizeCharging (db : Db) (now : ℤ) (stationId : ℕ)
    (batteries : List OptimizationBattery) : List OptimizedQueueItem :=
  let items := batteries.map fun b => (b.batteryId, finalScore db now stationId b)
  numbered now batteries 0 (items.mergeSort fun x y => y.2 ≤ x.2)

def slotBattery : StationSlot → Except Exc (Option Battery) := fun _ => .error .attributeError

def chargingSlots (db : Db) (stationId : ℕ) : List StationSlot :=
  db.slots.filter fun slot => slot.stationId = stationId ∧ slot.status = "charging"

section

variable (battery : StationSlot → Except Exc (Option Battery))

def asOptimizationBattery (b : Battery) : OptimizationBattery where
  batteryId := toString b.id
  currentCharge := b.currentCharge
  stateOfHealth := b.healthPercentage

/-- The loop over the slots. -/
def optBatteries : List StationSlot → Except Exc (List OptimizationBattery)
  | [] => .ok []
  | slot :: slots => do
    let b ← battery slot
    let rest ← optBatteries slots
    return (b.map asOptimizationBattery).toList ++ rest

def getChargingQueue (db : Db) (now : ℤ) (stationId : ℕ) :
    Except Exc (List OptimizedQueueItem) := do
  let batteries ← optBatteries battery (chargingSlots db stationId)
  if batteries = [] then return []
  return prioritizeCharging db now stationId batteries

/-- The score of an urgent battery is raised. -/
def boosted (urgentIds : List String) (item : OptimizedQueueItem) : OptimizedQueueItem :=
  if item.batteryId ∈ urgentIds then { item with priorityScore := item.priorityScore + 1000 }
  else item

/-- The first `i` positions are taken. -/
def renumbered : ℕ → List OptimizedQueueItem → List OptimizedQueueItem
  | _, [] => []
  | i, item :: items => { item with queuePosition := i + 1 } :: renumbered (i + 1) items

def resorted (urgentIds : List String) (queue : List OptimizedQueueItem) :
    List OptimizedQueueItem :=
  (queue.map (boosted urgentIds)).mergeSort fun x y => y.priorityScore ≤ x.priorityScore

def reprioritizeQueue (db : Db) (now : ℤ) (stationId : ℕ) (urgentIds : List String) :
    Except Exc (List OptimizedQueueItem) := do
  let queue ← getChargingQueue battery db now stationId
  return renumbered 0 (resorted urgentIds queue)

end

/-- The queue in the new order. -/
structure Reordered (urgentIds : List String) (queue result : List OptimizedQueueItem) : Prop where
  perm : (result.map OptimizedQueueItem.batteryId).Perm (queue.map OptimizedQueueItem.batteryId)
  positions : result.map OptimizedQueueItem.queuePosition = List.range' 1 queue.length
  urgentFirst : result.Pairwise fun x y => y.batteryId ∈ urgentIds → x.batteryId ∈ urgentIds
  /-- the urgent ones by score, ties in the order of the queue, and the others likewise -/
  ordered : ∀ p : Bool, (result.filter fun x => decide (x.batteryId ∈ urgentIds) = p).map
      OptimizedQueueItem.batteryId =
    ((queue.filter fun x => decide (x.batteryId ∈ urgentIds) = p).mergeSort
      fun x y => y.priorityScore ≤ x.priorityScore).map OptimizedQueueItem.batteryId

section

variable {battery : StationSlot → Except Exc (Option Battery)} {db : Db} {now : ℤ}
  {stationId : ℕ} {urgentIds : List String}

/-! ## Numbers -/

theorem map_renumbered {α : Type} {f : OptimizedQueueItem → α}
    (hf : ∀ item k, f { item with queuePosition := k } = f item) (i : ℕ)
    (items : List OptimizedQueueItem) : (renumbered i items).map f = items.map f := by
  induction items generalizing i with
  | nil => rfl
  | cons item items ih => rw [renumbered, List.map_cons, List.map_cons, ih, hf]

theorem positions_renumbered (i : ℕ) (items : List OptimizedQueueItem) :
    (renumbered i items).map OptimizedQueueItem.queuePosition =
      List.range' (i + 1) items.length := by
  induction items generalizing i with
  | nil => rfl
  | cons item items ih => rw [renumbered, List.map_cons, ih, List.length_cons, List.range'_succ]

theorem map_numbered (now : ℤ) (batteries : List OptimizationBattery) (i : ℕ)
    (items : List (String × ℚ)) :
    (numbered now batteries i items).map (fun x => (x.batteryId, x.priorityScore)) = items := by
  induction items generalizing i with
  | nil => rfl
  | cons item items ih => rw [numbered, List.map_cons, ih]

/-! ## The first queue -/

theorem descending_prioritize (db : Db) (now : ℤ) (stationId : ℕ)
    (batteries : List OptimizationBattery) :
    (prioritizeCharging db now stationId batteries).Pairwise fun x y =>
      y.priorityScore ≤ x.priorityScore := by
  have hsorted := pairwise_descending Prod.snd
    (batteries.map fun b => (b.batteryId, finalScore db now stationId b))
  rw [← map_numbered now batteries 0 (List.mergeSort _ _), List.pairwise_map] at hsorted
  exact hsorted

theorem perm_prioritize (db : Db) (now : ℤ) (stationId : ℕ)
    (batteries : List OptimizationBattery) :
    ((prioritizeCharging db now stationId batteries).map fun x =>
      (x.batteryId, x.priorityScore)).Perm
    (batteries.map fun b => (b.batteryId, finalScore db now stationId b)) := by
  unfold prioritizeCharging
  rw [map_numbered]
  exact List.mergeSort_perm _ _

variable {batteries : List OptimizationBattery}

theorem exists_item_iff {batteryId : String} {score : ℚ} :
    (∃ x ∈ prioritizeCharging db now stationId batteries,
        x.batteryId = batteryId ∧ x.priorityScore = score) ↔
      ∃ b ∈ batteries, b.batteryId = batteryId ∧ finalScore db now stationId b = score := by
  have hmem := (perm_prioritize db now stationId batteries).mem_iff (a := (batteryId, score))
  simpa [List.mem_map] using hmem

theorem optBatteries_ok_iff (slots : List StationSlot) :
    (∃ batteries, optBatteries battery slots = .ok batteries) ↔
      ∀ slot ∈ slots, ∃ b, battery slot = .ok b := by
  induction slots with
  | nil => exact iff_of_true ⟨[], rfl⟩ (by simp)
  | cons slot slots ih =>
    rw [List.forall_mem_cons, ← ih, optBatteries]
    rcases battery slot with e | b
    · exact iff_of_false (by rintro ⟨_, ⟨⟩⟩) (by rintro ⟨⟨_, ⟨⟩⟩, -⟩)
    · rcases optBatteries battery slots with e | rest
      · exact iff_of_false (by rintro ⟨_, ⟨⟩⟩) (by rintro ⟨-, _, ⟨⟩⟩)
      · exact iff_of_true ⟨_, rfl⟩ ⟨⟨b, rfl⟩, rest, rfl⟩

theorem getChargingQueue_ok
    (h : optBatteries battery (chargingSlots db stationId) = .ok batteries) :
    getChargingQueue battery db now stationId =
      .ok (prioritizeCharging db now stationId batteries) := by
  unfold getChargingQueue
  rw [h]
  show (if batteries = [] then Except.ok [] else _) = _
  split_ifs with hempty
  · rw [hempty]
    simp [prioritizeCharging, numbered]
  · rfl

/-! ## The second sort -/

theorem priorityScore_boosted (item : OptimizedQueueItem) :
    (boosted urgentIds item).priorityScore =
      item.priorityScore + if item.batteryId ∈ urgentIds then 1000 else 0 := by
  unfold boosted
  split_ifs
  · rfl
  · exact (add_zero _).symm

@[simp] theorem batteryId_boosted (item : OptimizedQueueItem) :
    (boosted urgentIds item).batteryId = item.batteryId := by
  unfold boosted
  split_ifs <;> rfl

theorem map_batteryId_result (urgentIds : List String) (queue : List OptimizedQueueItem) :
    (renumbered 0 (resorted urgentIds queue)).map OptimizedQueueItem.batteryId =
      (resorted urgentIds queue).map OptimizedQueueItem.batteryId :=
  map_renumbered (fun _ _ => rfl) 0 _

theorem map_batteryId_boosted (urgentIds : List String) (queue : List OptimizedQueueItem) :
    (queue.map (boosted urgentIds)).map OptimizedQueueItem.batteryId =
      queue.map OptimizedQueueItem.batteryId := by
  rw [List.map_map]
  exact List.map_congr_left fun item _ => batteryId_boosted item

theorem map_filter_batteryId (l : List OptimizedQueueItem) (q : String → Bool) :
    (l.filter fun x => q x.batteryId).map OptimizedQueueItem.batteryId =
      (l.map OptimizedQueueItem.batteryId).filter q := by
  rw [List.filter_map]
  rfl

variable {queue : List OptimizedQueueItem}

/-- Among the urgent batteries, and among the others, the order does not change. -/
theorem ordered_resorted
    (hqueue : queue.Pairwise fun x y => y.priorityScore ≤ x.priorityScore) (p : Bool) :
    ((resorted urgentIds queue).filter fun x => decide (x.batteryId ∈ urgentIds) = p).map
        OptimizedQueueItem.batteryId =
      (queue.filter fun x => decide (x.batteryId ∈ urgentIds) = p).map
        OptimizedQueueItem.batteryId := by
  have hclass : ((queue.map (boosted urgentIds)).filter fun x =>
      decide (x.batteryId ∈ urgentIds) = p).Pairwise fun x y =>
        y.priorityScore ≤ x.priorityScore := by
    rw [List.filter_map, List.pairwise_map]
    refine ((hqueue.filter _).imp_of_mem fun {x y} hx hy hxy => ?_)
    have hx' := (List.mem_filter.mp hx).2
    have hy' := (List.mem_filter.mp hy).2
    simp only [Function.comp_apply, batteryId_boosted, decide_eq_true_eq] at hx' hy'
    have hsame : x.batteryId ∈ urgentIds ↔ y.batteryId ∈ urgentIds := by
      rw [← decide_eq_decide, hx', hy']
    rw [priorityScore_boosted, priorityScore_boosted]
    by_cases hurgent : y.batteryId ∈ urgentIds
    · rw [if_pos hurgent, if_pos (hsame.mpr hurgent)]
      linarith
    · rw [if_neg hurgent, if_neg fun h => hurgent (hsame.mp h)]
      linarith
  unfold resorted
  rw [filter_descending OptimizedQueueItem.priorityScore hclass, map_filter_batteryId _ fun id =>
    decide (decide (id ∈ urgentIds) = p), map_batteryId_boosted, ← map_filter_batteryId]

/-- An urgent battery is before all others exactly if its raised score is above theirs. -/
theorem urgentFirst_iff (hqueue : queue.Pairwise fun x y => y.priorityScore ≤ x.priorityScore) :
    ((resorted urgentIds queue).Pairwise fun x y =>
        y.batteryId ∈ urgentIds → x.batteryId ∈ urgentIds) ↔
      ∀ u ∈ queue, ∀ v ∈ queue, u.batteryId ∈ urgentIds → v.batteryId ∉ urgentIds →
        v.priorityScore < u.priorityScore + 1000 := by
  constructor
  · intro hfirst u hu v hv hurgent hnot
    by_contra hle
    -- the other battery is before the urgent one in the queue, and stays there
    have hpair := pair_sublist_of_lt OptimizedQueueItem.priorityScore hqueue hv hu
      (by linarith [not_lt.mp hle])
    have hkey : (boosted urgentIds u).priorityScore ≤ (boosted urgentIds v).priorityScore := by
      rw [priorityScore_boosted, priorityScore_boosted, if_pos hurgent, if_neg hnot]
      linarith [not_lt.mp hle]
    have hstays := ties_descending OptimizedQueueItem.priorityScore
      (hpair.map (boosted urgentIds)) hkey
    have himp := List.rel_of_pairwise_cons (hfirst.sublist hstays) List.mem_cons_self
    rw [batteryId_boosted, batteryId_boosted] at himp
    exact hnot (himp hurgent)
  · intro habove
    have hsorted := pairwise_descending OptimizedQueueItem.priorityScore
      (queue.map (boosted urgentIds))
    refine hsorted.imp_of_mem fun {x y} hx hy hxy hurgent => ?_
    by_contra hnot
    obtain ⟨v, hv, rfl⟩ := List.mem_map.mp (List.mem_mergeSort.mp hx)
    obtain ⟨u, hu, rfl⟩ := List.mem_map.mp (List.mem_mergeSort.mp hy)
    rw [batteryId_boosted] at hurgent hnot
    rw [priorityScore_boosted, priorityScore_boosted, if_pos hurgent, if_neg hnot] at hxy
    have hlt := habove u hu v hv hurgent hnot
    linarith

/-- **The second sort is in the new order** exactly if the raised scores are above the others. -/
theorem reordered_iff (urgentIds : List String)
    (hqueue : queue.Pairwise fun x y => y.priorityScore ≤ x.priorityScore) :
    Reordered urgentIds queue (renumbered 0 (resorted urgentIds queue)) ↔
      ∀ u ∈ queue, ∀ v ∈ queue, u.batteryId ∈ urgentIds → v.batteryId ∉ urgentIds →
        v.priorityScore < u.priorityScore + 1000 := by
  have hids := map_batteryId_result urgentIds queue
  have hpairs : ∀ l : List OptimizedQueueItem, (l.Pairwise fun x y =>
      y.batteryId ∈ urgentIds → x.batteryId ∈ urgentIds) ↔
        (l.map OptimizedQueueItem.batteryId).Pairwise fun x y => y ∈ urgentIds → x ∈ urgentIds := by
    intro l
    rw [List.pairwise_map]
  rw [← urgentFirst_iff hqueue, hpairs, ← hids, ← hpairs]
  refine ⟨fun h => h.urgentFirst, fun hfirst => ⟨?_, ?_, hfirst, fun p => ?_⟩⟩
  · rw [hids, ← map_batteryId_boosted urgentIds queue]
    exact (List.mergeSort_perm _ _).map _
  · rw [positions_renumbered, resorted, List.length_mergeSort, List.length_map]
  · rw [List.mergeSort_of_pairwise ((hqueue.filter _).imp decide_eq_true),
      ← ordered_resorted hqueue p, map_filter_batteryId _ fun id =>
        decide (decide (id ∈ urgentIds) = p), hids, ← map_filter_batteryId]

end

/-! ## The queue of a station -/

def chargingBatteries (battery : StationSlot → Except Exc (Option Battery)) (db : Db)
    (stationId : ℕ) : List OptimizationBattery :=
  match optBatteries battery (chargingSlots db stationId) with
  | .ok batteries => batteries
  | .error _ => []

/-- The queue of the station is brought into the new order. -/
def Reprioritized (battery : StationSlot → Except Exc (Option Battery)) (db : Db) (now : ℤ)
    (stationId : ℕ) (urgentIds : List String) : Prop :=
  ∃ queue result, getChargingQueue battery db now stationId = .ok queue ∧
    reprioritizeQueue battery db now stationId urgentIds = .ok result ∧
    (queue.map OptimizedQueueItem.batteryId).Perm
      ((chargingBatteries battery db stationId).map OptimizationBattery.batteryId) ∧
    Reordered urgentIds queue result

/-- **The queue is brought into the new order** exactly if the battery of each slot that charges can
be read, and the terms of each urgent battery are less than 1000 below those of every other one. -/
theorem reprioritize_queue_iff (battery : StationSlot → Except Exc (Option Battery)) (db : Db)
    (now : ℤ) (stationId : ℕ) (urgentIds : List String) :
    Reprioritized battery db now stationId urgentIds ↔
      (∀ slot ∈ chargingSlots db stationId, ∃ b, battery slot = .ok b) ∧
        ∀ u ∈ chargingBatteries battery db stationId,
          ∀ v ∈ chargingBatteries battery db stationId,
            u.batteryId ∈ urgentIds → v.batteryId ∉ urgentIds →
              standing db now v < standing db now u + 1000 := by
  rw [← optBatteries_ok_iff]
  unfold Reprioritized reprioritizeQueue chargingBatteries
  rcases hslots : optBatteries battery (chargingSlots db stationId) with e | batteries
  · rw [getChargingQueue, hslots]
    exact iff_of_false (by rintro ⟨_, _, ⟨⟩, -⟩) (by rintro ⟨⟨_, ⟨⟩⟩, -⟩)
  rw [getChargingQueue_ok hslots, and_iff_right ⟨batteries, rfl⟩]
  have hiff := reordered_iff urgentIds (descending_prioritize db now stationId batteries)
  constructor
  · rintro ⟨queue, result, hq, hr, -, hreordered⟩ u hu v hv hurgent hnot
    obtain rfl := Except.ok.inj hq
    obtain rfl := Except.ok.inj hr
    obtain ⟨x, hx, hxid, hxscore⟩ := exists_item_iff.mpr ⟨u, hu, rfl, rfl⟩
    obtain ⟨y, hy, hyid, hyscore⟩ := exists_item_iff.mpr ⟨v, hv, rfl, rfl⟩
    have hlt := hiff.mp hreordered x hx y hy (hxid ▸ hurgent) (hyid ▸ hnot)
    rw [hxscore, hyscore] at hlt
    unfold finalScore at hlt
    linarith
  · intro habove
    refine ⟨_, _, rfl, rfl, ?_, hiff.mpr fun x hx y hy hurgent hnot => ?_⟩
    · have h := (perm_prioritize db now stationId batteries).map Prod.fst
      rwa [List.map_map, List.map_map] at h
    · obtain ⟨u, hu, hxid, hxscore⟩ := exists_item_iff.mp ⟨x, hx, rfl, rfl⟩
      obtain ⟨v, hv, hyid, hyscore⟩ := exists_item_iff.mp ⟨y, hy, rfl, rfl⟩
      have hlt := habove u hu v hv (hxid ▸ hurgent) (hyid ▸ hnot)
      rw [← hxscore, ← hyscore]
      unfold finalScore
      linarith

/-! ## Two ways in which it is not -/

/-- A slot charges battery 1, a second one battery 2, which is reserved for now. -/
def twoCharging : Db where
  slots := ⟨[⟨1, 5, "charging", some 1⟩, ⟨2, 5, "charging", some 2⟩], by decide⟩
  reservations := ⟨[⟨1, 5, some 2, 0, hour, "PENDING"⟩], by decide⟩

/-- The battery that is in a slot, both of them half charged. -/
def inSlot : StationSlot → Except Exc (Option Battery) := fun slot =>
  .ok (slot.batteryId.map fun id => { id, currentCharge := 50 })

/-- The queue cannot be read; and if it could be, battery 2 would stay before battery 1, which is
urgent. -/
theorem urgent_behind_reserved : ¬ Reprioritized slotBattery twoCharging 0 5 ["1"] ∧
    ¬ Reprioritized inSlot twoCharging 0 5 ["1"] := by
  constructor
  · rintro ⟨queue, result, hqueue, -⟩
    cases hqueue
  · rintro ⟨queue, result, hqueue, hresult, -, hreordered⟩
    have hslots : optBatteries inSlot (chargingSlots twoCharging 5) =
        .ok [⟨"1", 50, 100⟩, ⟨"2", 50, 100⟩] := by decide +kernel
    rw [getChargingQueue_ok hslots] at hqueue
    rw [reprioritizeQueue, getChargingQueue_ok hslots] at hresult
    obtain rfl := Except.ok.inj hqueue
    obtain rfl := Except.ok.inj hresult
    obtain ⟨u, hu, huid, huscore⟩ := exists_item_iff.mpr
      ⟨⟨"1", 50, 100⟩, List.mem_cons_self, rfl, rfl⟩
    obtain ⟨v, hv, hvid, hvscore⟩ := exists_item_iff.mpr
      ⟨⟨"2", 50, 100⟩, List.mem_cons_of_mem _ List.mem_cons_self, rfl, rfl⟩
    have hlt := (reordered_iff _ (descending_prioritize _ _ _ _)).mp hreordered u hu v hv
      (by simp [huid]) (by simp [hvid])
    rw [huscore, hvscore] at hlt
    exact absurd hlt (by decide +kernel)

end WezuBackend.Fleet.ChargingQueue
