import WezuBackend.Fleet.Acceptance
import WezuBackend.Fleet.Shelf
import WezuBackend.Lib.Loops

/-!
# Batteries that move one after the other

The batteries of a list move in turn, each with a transition of its own.  The moves before one have
taken rows from shelves and put others there, and that is all it can tell of them: `After` says what
the store is once some have moved, `Movable` what the next one asks for, in terms of the store that
the first one has met.  A loop over the batteries returns exactly if each is movable in its turn
(`moves_iff`), and it leaves `After` (`moves_run`).
-/

namespace WezuBackend.Fleet.Sequences

open Lib.Tables Lib.Loops Lib.Atomicity Core.Letters Fleet.Model
open Fleet.Consistency Fleet.Transitions Fleet.Shelf Fleet.Acceptance

def eventsOf (db : Db) (batteryId : ℕ) : List BatteryLifecycleEvent :=
  db.batteryLifecycleEvents.filter fun e => e.batteryId = batteryId

section

variable [Casing]

/-! ## The batteries -/

def serialsOf (l : List Battery) : List String := l.map fun b => normal b.serialNumber

def underSerial (now : ℕ) (battery : Battery) : Battery :=
  renamed now (normal battery.serialNumber) battery

/-- Batteries of the store that the code tells apart, and from all others, by their serials. -/
structure Apart (db : Db) (l : List Battery) : Prop where
  mem : ∀ b ∈ l, b ∈ db.batteries
  named : ∀ b ∈ l, normal b.serialNumber ≠ ""
  nodup : (serialsOf l).Nodup
  alone : ∀ b ∈ l, ∀ x ∈ db.batteries, x.serialNumber = normal b.serialNumber → x.id = b.id

variable {now : ℕ} {goes : Battery → Transition} {db db' : Db} {l before after : List Battery}
  {b : Battery}

variable {serial : String}

theorem mem_serialsOf :
    serial ∈ serialsOf l ↔ ∃ b ∈ l, normal b.serialNumber = serial := List.mem_map

theorem Apart.serial_inj (h : Apart db l) {x y : Battery} (hx : x ∈ l) (hy : y ∈ l)
    (hserial : normal x.serialNumber = normal y.serialNumber) : x = y :=
  List.inj_on_of_nodup_map h.nodup hx hy hserial

theorem Apart.nodup_ids (h : Apart db l) : (l.map Battery.id).Nodup := by
  have hl : l.Nodup := List.Nodup.of_map _ h.nodup
  exact hl.map_on fun x hx y hy hid => Table.eq_of_key (h.mem x hx) (h.mem y hy) hid

theorem Apart.of_prefix (h : Apart db l) (hl : l = before ++ after) : Apart db before := by
  have hsub : ∀ x ∈ before, x ∈ l := fun x hx => hl ▸ List.mem_append_left _ hx
  have hserials : serialsOf l = serialsOf before ++ serialsOf after := by
    rw [hl]
    exact List.map_append
  have hnodup := h.nodup
  rw [hserials] at hnodup
  exact ⟨fun x hx => h.mem x (hsub x hx), fun x hx => h.named x (hsub x hx),
    (List.nodup_append.mp hnodup).1, fun x hx => h.alone x (hsub x hx)⟩

theorem Apart.next (h : Apart db l) (hl : l = before ++ b :: after) :
    b ∈ l ∧ b.id ∉ before.map Battery.id ∧ normal b.serialNumber ∉ serialsOf before := by
  have hids := h.nodup_ids
  have hserials := h.nodup
  unfold serialsOf at hserials
  rw [hl, List.map_append, List.map_cons, List.nodup_append] at hids hserials
  refine ⟨hl ▸ List.mem_append_right _ List.mem_cons_self, fun hmem => ?_, fun hmem => ?_⟩
  · exact hids.2.2 _ hmem _ List.mem_cons_self rfl
  · exact hserials.2.2 _ hmem _ List.mem_cons_self rfl

@[simp] theorem normal_underSerial (now : ℕ) (b : Battery) :
    normal (underSerial now b).serialNumber = normal b.serialNumber := normal_normal _

theorem underSerial_underSerial (now : ℕ) (b : Battery) :
    renamed now (normal (underSerial now b).serialNumber) (underSerial now b) =
      underSerial now b := by
  rw [normal_underSerial]
  unfold underSerial renamed
  rw [if_pos rfl]

theorem outcome_underSerial (now : ℕ) (args : Transition) (b : Battery) :
    outcome now args (underSerial now b) = outcome now args b := by
  have htarget : ∀ x : Battery, outcome now args x = placed now args (targetStatus args x)
      (targetLocationType args x) (storedLocationId args x)
      (renamed now (normal x.serialNumber) x) := fun _ => rfl
  rw [htarget, underSerial_underSerial]
  rfl

/-! ## The shelf rows -/

def GoesTo (goes : Battery → Transition) (shelfId : ℕ) (b : Battery) : Prop :=
  targetLocationType (goes b) b = some .shelf ∧ targetLocationId (goes b) b = some shelfId

instance (goes : Battery → Transition) (shelfId : ℕ) (b : Battery) :
    Decidable (GoesTo goes shelfId b) := by
  unfold GoesTo
  infer_instance

variable {a : Option ShelfBattery} {p : ShelfBattery → Bool}

/-- What is asked of rows of other serials is asked of the same rows. -/
theorem filter_reshelved {shelves : Table Shelf} {rows rows' : Table ShelfBattery}
    {type : Option LocationType} {k : Option ℕ}
    (h : Assigned rows serial a) (hserial : sqlUpper serial = serial)
    (hp : ∀ r, sqlUpper r.batteryId = serial → p r = false)
    (hr : Reshelved shelves rows serial a type k rows') : rows'.filter p = rows.filter p := by
  have hdropped : (dropped rows a).filter p = rows.filter p := by
    rcases ha : a with _ | x
    · rfl
    · obtain ⟨hmem, hx⟩ := (h x).mpr ha
      refine Table.filter_erase_of_not fun r hr hk => ?_
      rw [Table.eq_of_key hr hmem hk]
      exact hp x hx
  cases hr with
  | kept => rfl
  | @shelved k =>
    have hnew : p ⟨(dropped rows a).freshKey, k, serial⟩ = false := hp _ hserial
    rw [Table.filter_add_mk fun _ => rfl, hnew, hdropped, if_neg Bool.false_ne_true,
      List.append_nil]
  | cleared => exact hdropped

variable {rows : Table ShelfBattery}

/-- A battery that has moved has a row on the shelf it went to, and on no other. -/
theorem length_shelved {y : Battery} (h : ShelfState rows (outcome now (goes y) y)) (k : ℕ) :
    (rows.filter fun r => r.shelfId = k ∧ sqlUpper r.batteryId = normal y.serialNumber).length =
      if GoesTo goes k y then 1 else 0 := by
  have hrow : ∀ r, RowOf (outcome now (goes y) y) r ↔
      sqlUpper r.batteryId = normal y.serialNumber := by
    intro r
    unfold RowOf
    rw [outcome_serialNumber, normal_normal]
  have hunique : rows.Unique fun r =>
      (decide (r.shelfId = k ∧ sqlUpper r.batteryId = normal y.serialNumber) : Bool) := by
    intro r hr r' hr' hp hp'
    exact h.once r hr r' hr' ((hrow r).mpr (of_decide_eq_true hp).2)
      ((hrow r').mpr (of_decide_eq_true hp').2)
  have hle := Table.length_filter_le_one hunique
  split_ifs with hgoes
  · obtain ⟨htype, hid⟩ := hgoes
    obtain ⟨r, hr, hown⟩ := h.shelved.mpr (by rw [outcome_locationType, htype])
    have hplace := h.place r hr hown
    rw [outcome_locationId, storedLocationId_of_requiring htype (by decide), hid] at hplace
    have hmem : r ∈ rows.filter fun r =>
        r.shelfId = k ∧ sqlUpper r.batteryId = normal y.serialNumber :=
      Table.mem_filter.mpr ⟨hr, decide_eq_true ⟨(Option.some.inj hplace).symm, (hrow r).mp hown⟩⟩
    have hpos := List.length_pos_of_mem hmem
    omega
  · refine List.length_eq_zero_iff.mpr (List.filter_eq_nil_iff.mpr fun r hr hp => hgoes ?_)
    obtain ⟨hk, hserial⟩ := of_decide_eq_true hp
    have hshelf := h.shelved.mp ⟨r, hr, (hrow r).mpr hserial⟩
    have hplace := h.place r hr ((hrow r).mpr hserial)
    rw [outcome_locationType] at hshelf
    rw [outcome_locationId, storedLocationId_of_requiring hshelf (by decide), hk] at hplace
    exact ⟨hshelf, hplace⟩

theorem length_joined {moved : List Battery} (k : ℕ) (hnodup : (serialsOf moved).Nodup)
    (hstates : ∀ y ∈ moved, ShelfState rows (outcome now (goes y) y)) :
    (rows.filter fun r => r.shelfId = k ∧ sqlUpper r.batteryId ∈ serialsOf moved).length =
      (moved.filter fun y => GoesTo goes k y).length := by
  induction moved with
  | nil => simp [serialsOf, Table.filter]
  | cons y ys ih =>
    obtain ⟨hnew, hrest⟩ := List.nodup_cons.mp hnodup
    have hstate := hstates y List.mem_cons_self
    have hlater := ih hrest fun x hx => hstates x (List.mem_cons_of_mem _ hx)
    have hsplit := List.length_eq_length_filter_add (l := rows.filter fun r =>
      r.shelfId = k ∧ sqlUpper r.batteryId ∈ serialsOf (y :: ys))
        fun r => decide (sqlUpper r.batteryId = normal y.serialNumber)
    have hfirst : (rows.filter fun r =>
        r.shelfId = k ∧ sqlUpper r.batteryId ∈ serialsOf (y :: ys)).filter
          (fun r => decide (sqlUpper r.batteryId = normal y.serialNumber)) =
        rows.filter fun r => r.shelfId = k ∧ sqlUpper r.batteryId = normal y.serialNumber := by
      unfold Table.filter
      rw [List.filter_filter]
      refine List.filter_congr fun r _ => ?_
      by_cases hr : sqlUpper r.batteryId = normal y.serialNumber
      · simp [hr, serialsOf]
      · simp [hr]
    have hsecond : (rows.filter fun r =>
        r.shelfId = k ∧ sqlUpper r.batteryId ∈ serialsOf (y :: ys)).filter
          (fun r => !decide (sqlUpper r.batteryId = normal y.serialNumber)) =
        rows.filter fun r => r.shelfId = k ∧ sqlUpper r.batteryId ∈ serialsOf ys := by
      unfold Table.filter
      rw [List.filter_filter]
      refine List.filter_congr fun r _ => ?_
      by_cases hr : sqlUpper r.batteryId = normal y.serialNumber
      · have hnot : sqlUpper r.batteryId ∉ serialsOf ys := hr ▸ hnew
        simp [hr, hr ▸ hnot]
      · simp [hr, serialsOf]
    rw [hsplit, hfirst, hsecond, length_shelved hstate, hlater, List.filter_cons]
    by_cases hgoes : GoesTo goes k y
    · rw [if_pos hgoes, if_pos (decide_eq_true hgoes), List.length_cons]
      omega
    · rw [if_neg hgoes, if_neg (by simpa using hgoes)]
      omega

/-! ## Some have moved -/

/-- The store `db` once the batteries in `moved` have made their transitions. -/
structure After (now : ℕ) (goes : Battery → Transition) (db : Db) (moved : List Battery)
    (db' : Db) : Prop extends SameChecks db db' where
  unique : UniqueIndexes db'
  batteries : db'.batteries = db.batteries.setAll (moved.map fun y => outcome now (goes y) y)
  rows : (db'.shelfBatteries.filter fun r => sqlUpper r.batteryId ∉ serialsOf moved) =
    db.shelfBatteries.filter fun r => sqlUpper r.batteryId ∉ serialsOf moved
  states : ∀ y ∈ moved, ShelfState db'.shelfBatteries (outcome now (goes y) y)
  events : ∀ k, k ∉ moved.map Battery.id → eventsOf db' k = eventsOf db k

theorem after_nil (now : ℕ) (goes : Battery → Transition) (hu : UniqueIndexes db) :
    After now goes db [] db where
  toSameChecks := ⟨⟨rfl, rfl, rfl, rfl⟩, rfl, rfl, rfl, rfl⟩
  unique := hu
  batteries := rfl
  rows := rfl
  states _ hy := absurd hy List.not_mem_nil
  events _ _ := rfl

theorem After.mem_batteries (h : After now goes db before db') (hapart : Apart db before)
    {x : Battery} : x ∈ db'.batteries ↔ (∃ y ∈ before, x = outcome now (goes y) y) ∨
      (x ∈ db.batteries ∧ x.id ∉ before.map Battery.id) := by
  have hkeys :
      (before.map fun y => outcome now (goes y) y).map Row.key = before.map Battery.id := by
    rw [List.map_map]
    exact List.map_congr_left fun y _ => outcome_id now (goes y) y
  have hself : ∀ x : Battery, x ∈ db'.batteries ↔ db'.batteries.get? x.id = some x := fun x =>
    (Table.get?_eq_some.trans (and_iff_left rfl)).symm
  have hmoved : ∀ y ∈ before, db'.batteries.get? y.id = some (outcome now (goes y) y) := by
    intro y hy
    have hold : db.batteries.get? (Row.key (outcome now (goes y) y)) = some y := by
      rw [key_battery, outcome_id]
      exact Table.get?_of_mem (hapart.mem y hy)
    have hget := Table.get?_setAll (hkeys ▸ hapart.nodup_ids)
      (List.mem_map_of_mem (f := fun y => outcome now (goes y) y) hy) hold
    rw [key_battery, outcome_id] at hget
    rw [h.batteries]
    exact hget
  by_cases hx : x.id ∈ before.map Battery.id
  · obtain ⟨y, hy, hid⟩ := List.mem_map.mp hx
    have hget : db'.batteries.get? x.id = some (outcome now (goes y) y) := hid ▸ hmoved y hy
    rw [hself, hget]
    constructor
    · exact fun heq => .inl ⟨y, hy, (Option.some.inj heq).symm⟩
    · rintro (⟨z, hz, rfl⟩ | ⟨-, hnot⟩)
      · rw [outcome_id] at hget
        exact hget.symm.trans (hmoved z hz)
      · exact absurd hx hnot
  · have hget : db'.batteries.get? x.id = db.batteries.get? x.id := by
      rw [h.batteries]
      exact Table.get?_setAll_of_not_mem (hkeys ▸ hx)
    rw [hself, hget]
    constructor
    · exact fun hold => .inr ⟨(Table.get?_eq_some.mp hold).1, hx⟩
    · rintro (⟨y, hy, rfl⟩ | ⟨hmem, -⟩)
      · exact absurd (List.mem_map.mpr ⟨y, hy, (outcome_id _ _ _).symm⟩) hx
      · exact Table.get?_of_mem hmem

theorem After.filter_rows (h : After now goes db before db')
    (hp : ∀ r, sqlUpper r.batteryId ∈ serialsOf before → p r = false) :
    db'.shelfBatteries.filter p = db.shelfBatteries.filter p := by
  have hsub : ∀ rows : Table ShelfBattery, rows.filter p =
      (rows.filter fun r => sqlUpper r.batteryId ∉ serialsOf before).filter p := by
    intro rows
    unfold Table.filter
    rw [List.filter_filter]
    refine List.filter_congr fun r _ => ?_
    by_cases hr : sqlUpper r.batteryId ∈ serialsOf before
    · rw [hp r hr, Bool.false_and]
    · simp [hr]
  rw [hsub, h.rows, ← hsub]

theorem After.unique_next (h : After now goes db before db') (hapart : Apart db l)
    (hl : l = before ++ b :: after) : UniqueIndexes
      { db' with batteries := db'.batteries.set (underSerial now b) } := by
  obtain ⟨hb, -, hserial⟩ := hapart.next hl
  have halone : ∀ x ∈ db'.batteries, x.serialNumber = normal b.serialNumber → x.id = b.id := by
    intro x hx hsame
    rcases (h.mem_batteries (hapart.of_prefix hl)).mp hx with ⟨y, hy, rfl⟩ | ⟨hmem, -⟩
    · refine absurd (mem_serialsOf.mpr ⟨y, hy, ?_⟩) hserial
      rw [← hsame, outcome_serialNumber]
    · exact hapart.alone b hb x hmem hsame
  refine ⟨fun x hx y hy hsame => ?_, h.unique.shelfBatteries, h.unique.orderBatteries⟩
  rcases Table.mem_set.mp hx with ⟨hx, -⟩ | ⟨rfl, -⟩ <;>
    rcases Table.mem_set.mp hy with ⟨hy, -⟩ | ⟨rfl, -⟩
  · exact h.unique.serials x hx y hy hsame
  · exact halone x hx hsame
  · exact (halone y hy hsame.symm).symm
  · rfl

/-! ## What the next one asks for -/

/-- There is room for the next battery on the shelf: it is there already, or the rows that stay and
those of the batteries that went there before leave some. -/
def RoomFor (goes : Battery → Transition) (db : Db) (before : List Battery) (b : Battery)
    (shelfId : ℕ) : Prop :=
  (∃ r ∈ db.shelfBatteries, sqlUpper r.batteryId = normal b.serialNumber ∧ r.shelfId = shelfId) ∨
    ∀ shelf, db.shelves.get? shelfId = some shelf →
      (db.shelfBatteries.filter fun r =>
          r.shelfId = shelfId ∧ sqlUpper r.batteryId ∉ serialsOf before).length +
        (before.filter fun y => GoesTo goes shelfId y).length < shelf.capacity

/-- The transition of the next battery is one that the checks let through. -/
structure Movable (goes : Battery → Transition) (db : Db) (before : List Battery) (b : Battery) :
    Prop where
  valid : targetStatus (goes b) b ∈ validBatteryStatuses
  unretired : b.status = .retired → targetStatus (goes b) b = .retired
  placed : ∀ type ∈ targetLocationType (goes b) b,
    PlaceOpen db type (targetLocationId (goes b) b)
  compatible : targetLocationType (goes b) b = some .transit →
    targetStatus (goes b) b ∈ transitCompatibleStatuses
  unlocked : Unlocked (goes b) (normal b.serialNumber) db
  once : (shelfRows db (normal b.serialNumber)).length ≤ 1
  room : targetLocationType (goes b) b = some .shelf → ∀ k,
    targetLocationId (goes b) b = some k → RoomFor goes db before b k

theorem After.length_shelf (h : After now goes db before db') (hapart : Apart db before) (k : ℕ) :
    (db'.shelfBatteries.rows.filter fun r => r.shelfId = k).length =
      (db.shelfBatteries.filter fun r =>
          r.shelfId = k ∧ sqlUpper r.batteryId ∉ serialsOf before).length +
        (before.filter fun y => GoesTo goes k y).length := by
  have hsplit := List.length_eq_length_filter_add
    (l := db'.shelfBatteries.rows.filter fun r => r.shelfId = k)
      fun r => decide (sqlUpper r.batteryId ∉ serialsOf before)
  rw [List.filter_filter, List.filter_filter] at hsplit
  have hstay := h.filter_rows (p := fun r =>
    decide (r.shelfId = k ∧ sqlUpper r.batteryId ∉ serialsOf before)) fun r hr => by simp [hr]
  have hjoined := length_joined k hapart.nodup h.states
  rw [hsplit, ← hjoined, ← hstay]
  congr 2 <;> refine List.filter_congr fun r _ => ?_
  · simp [Bool.and_comm]
  · simp [Bool.and_comm]

theorem After.shelfOpen_iff (h : After now goes db before db') (hapart : Apart db l)
    (hl : l = before ++ b :: after) (k : ℕ) :
    ShelfOpen db' (normal b.serialNumber) k ↔ RoomFor goes db before b k := by
  obtain ⟨-, -, hserial⟩ := hapart.next hl
  have hmem : ∀ r, sqlUpper r.batteryId = normal b.serialNumber →
      (r ∈ db'.shelfBatteries ↔ r ∈ db.shelfBatteries) := by
    intro r hr
    have hrows := h.filter_rows (p := fun x =>
      decide (sqlUpper x.batteryId = normal b.serialNumber)) fun x hx => by
        refine decide_eq_false fun hsame => hserial ?_
        rwa [← hsame]
    have hiff : ∀ rows : Table ShelfBattery, r ∈ rows ↔ r ∈ rows.filter fun x =>
        sqlUpper x.batteryId = normal b.serialNumber := fun rows => by
      rw [Table.mem_filter]
      exact (and_iff_left (decide_eq_true hr)).symm
    rw [hiff, hrows, ← hiff]
  unfold ShelfOpen RoomFor
  rw [h.shelves]
  refine or_congr ?_ ?_
  · exact ⟨fun ⟨r, hr, hs, hk⟩ => ⟨r, (hmem r hs).mp hr, hs, hk⟩,
      fun ⟨r, hr, hs, hk⟩ => ⟨r, (hmem r hs).mpr hr, hs, hk⟩⟩
  · rw [h.length_shelf (hapart.of_prefix hl)]

theorem After.shelfRows_eq (h : After now goes db before db') (hapart : Apart db l)
    (hl : l = before ++ b :: after) :
    shelfRows db' (normal b.serialNumber) = shelfRows db (normal b.serialNumber) := by
  obtain ⟨-, -, hserial⟩ := hapart.next hl
  refine h.filter_rows fun r hr => decide_eq_false fun hsame => hserial ?_
  rwa [← hsame]

/-- **What the next transition asks for**, read in the store that the first one has met. -/
theorem After.transitionable_iff (h : After now goes db before db') (hapart : Apart db l)
    (hl : l = before ++ b :: after) :
    Transitionable now (goes b) (underSerial now b)
        { db' with batteries := db'.batteries.set (underSerial now b) } ↔
      Movable goes db before b := by
  have hname : normal (underSerial now b).serialNumber = normal b.serialNumber :=
    normal_underSerial now b
  have hsame : SameChecks db { db' with batteries := db'.batteries.set (underSerial now b) } :=
    ⟨⟨h.warehouses, h.racks, h.stations, h.shelves⟩, h.inventoryTransfers,
      h.inventoryTransferItems, h.orders, h.orderBatteries⟩
  have hrows := h.shelfRows_eq hapart hl
  have hroom := h.shelfOpen_iff hapart hl
  constructor
  · intro ht
    refine ⟨ht.valid, ht.unretired, fun type htype => (ht.placed type htype).congr
      hsame.symm.toSamePlaces, ht.compatible, ?_, ?_, fun htype k hk => ?_⟩
    · rw [← hname]
      exact ht.unlocked.congr hsame.symm
    · rw [← hrows, ← hname]
      exact ht.once
    · rw [← hroom k, ← hname]
      exact ht.room htype k hk
  · intro hm
    refine ⟨?_, ?_, hm.valid, hm.unretired, fun type htype => (hm.placed type htype).congr
      hsame.toSamePlaces, hm.compatible, ?_, ?_, fun htype k hk => ?_⟩
    · rw [hname]
      exact hapart.named b (hapart.next hl).1
    · rw [underSerial_underSerial]
      dsimp only
      rw [Table.set_set rfl]
      exact h.unique_next hapart hl
    · rw [hname]
      exact hm.unlocked.congr hsame
    · rw [hname]
      exact hrows ▸ hm.once
    · rw [hname]
      exact (hroom k).mpr (hm.room htype k hk)

/-! ## The next one moves -/

/-- The session once the battery is written under its normalised serial. -/
def writtenUnder (now : ℕ) (b : Battery) (s : Session Db) : Session Db :=
  ⟨s.committed, { s.working with batteries := s.working.batteries.set (underSerial now b) }⟩

theorem filter_events {battery : Battery} {args : Transition}
    (h : Transitioned now args battery a db db') {k : ℕ} (hk : battery.id ≠ k) :
    eventsOf db' k = eventsOf db k := by
  have hevents := congrArg Db.batteryLifecycleEvents h.rest
  unfold eventsOf
  rw [hevents]
  dsimp only
  rw [Table.filter_add_mk fun _ => rfl, if_neg (by simpa using hk), List.append_nil]

variable {s t : Session Db}

theorem After.step {x : Battery} (h : After now goes db before s.working)
    (hapart : Apart db l) (hl : l = before ++ b :: after)
    (hrun : applyBatteryTransition now (underSerial now b) (goes b) (writtenUnder now b s) =
      (.ok x, t)) : After now goes db (before ++ [b]) t.working := by
  obtain ⟨-, -, a, ht⟩ := applyBatteryTransition_ok hrun
  have hname : normal (underSerial now b).serialNumber = normal b.serialNumber :=
    normal_underSerial now b
  have hassigned : Assigned s.working.shelfBatteries (normal b.serialNumber) a :=
    hname ▸ ht.assigned
  have hreshelved := ht.reshelved
  rw [hname] at hreshelved
  have hserials : serialsOf (before ++ [b]) = serialsOf before ++ [normal b.serialNumber] :=
    List.map_append
  refine ⟨⟨⟨?_, ?_, ?_, ?_⟩, ?_, ?_, ?_, ?_⟩, uniqueIndexes_of_transitioned ht ?_, ?_, ?_, ?_, ?_⟩
  · exact (congrArg Db.warehouses ht.rest).trans h.warehouses
  · exact (congrArg Db.racks ht.rest).trans h.racks
  · exact (congrArg Db.stations ht.rest).trans h.stations
  · exact (congrArg Db.shelves ht.rest).trans h.shelves
  · exact (congrArg Db.inventoryTransfers ht.rest).trans h.inventoryTransfers
  · exact (congrArg Db.inventoryTransferItems ht.rest).trans h.inventoryTransferItems
  · exact (congrArg Db.orders ht.rest).trans h.orders
  · exact (congrArg Db.orderBatteries ht.rest).trans h.orderBatteries
  · rw [underSerial_underSerial]
    dsimp only [writtenUnder]
    rw [Table.set_set rfl]
    exact h.unique_next hapart hl
  · rw [ht.batteries, outcome_underSerial, List.map_append]
    dsimp only [writtenUnder]
    rw [Table.set_set (outcome_id now (goes b) b).symm, h.batteries]
    unfold Table.setAll
    rw [List.foldl_append]
    rfl
  · refine (filter_reshelved hassigned (sqlUpper_normal _) (fun r hr => ?_) hreshelved).trans
      (h.filter_rows fun r hr => ?_)
    · simp [hserials, hr]
    · simp [hserials, hr]
  · intro y hy
    rcases List.mem_append.mp hy with hy | hy
    · refine (h.states y hy).congr fun r hr => ?_
      refine hassigned.mem_of_ne hreshelved (sqlUpper_normal _) fun hsame => ?_
      refine (hapart.next hl).2.2 (mem_serialsOf.mpr ⟨y, hy, ?_⟩)
      rw [← hsame, hr, outcome_serialNumber, normal_normal]
    · rw [List.mem_singleton.mp hy, ← outcome_underSerial]
      exact shelfState_outcome ht
  · intro k hk
    rw [List.map_append, List.mem_append, not_or] at hk
    have hne : (underSerial now b).id ≠ k := fun hid => hk.2 (by simp [← hid, underSerial, renamed])
    exact (filter_events ht hne).trans (h.events k hk.1)

/-! ## The loop -/

/-- For each battery in its turn the program makes the battery's transition under its normalised
serial, if the battery has the property `P`. -/
def Moves (now : ℕ) (goes : Battery → Transition) (P : Battery → Prop)
    (x : Battery → FleetTx Unit) (db : Db) (l : List Battery) : Prop :=
  ∀ before b after s t, l = before ++ b :: after → After now goes db before s.working →
    (x b s = (.ok (), t) ↔ P b ∧ ∃ b', applyBatteryTransition now (underSerial now b) (goes b)
      (writtenUnder now b s) = (.ok b', t))

variable {P : Battery → Prop} {x : Battery → FleetTx Unit}

theorem Moves.advances (h : Moves now goes P x db l) (hapart : Apart db l) :
    Advances x l (fun moved s => After now goes db moved s.working)
      fun moved b => P b ∧ Movable goes db moved b where
  returns {before b after s} hl hafter := by
    rw [← hafter.transitionable_iff hapart hl]
    have haccepts : (∃ b' t, applyBatteryTransition now (underSerial now b) (goes b)
        (writtenUnder now b s) = (.ok b', t)) ↔
          Transitionable now (goes b) (underSerial now b) (writtenUnder now b s).working :=
      applyBatteryTransition_accepts_iff
    rw [show { s.working with batteries := s.working.batteries.set (underSerial now b) } =
      (writtenUnder now b s).working from rfl, ← haccepts]
    constructor
    · rintro ⟨t, hrun⟩
      obtain ⟨hP, b', hmove⟩ := (h before b after s t hl hafter).mp hrun
      exact ⟨hP, b', t, hmove⟩
    · rintro ⟨hP, b', t, hmove⟩
      exact ⟨t, (h before b after s t hl hafter).mpr ⟨hP, b', hmove⟩⟩
  step {before b after s t} hl hafter hrun := by
    obtain ⟨-, b', hmove⟩ := (h before b after s t hl hafter).mp hrun
    exact hafter.step hapart hl hmove

theorem moves_iff {s : Session Db} (h : Moves now goes P x s.working l)
    (hapart : Apart s.working l) (hu : UniqueIndexes s.working) :
    (∃ t, l.forM x s = (.ok (), t)) ↔ ∀ before b after, l = before ++ b :: after →
      P b ∧ Movable goes s.working before b :=
  (h.advances hapart).returns_iff (after_nil now goes hu)

theorem moves_run {u : Unit} (h : Moves now goes P x s.working l)
    (hapart : Apart s.working l) (hu : UniqueIndexes s.working)
    (hrun : l.forM x s = (.ok u, t)) : After now goes s.working l t.working :=
  (h.advances hapart).run (after_nil now goes hu) hrun

end

end WezuBackend.Fleet.Sequences
