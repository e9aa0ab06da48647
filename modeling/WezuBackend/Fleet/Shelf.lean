import WezuBackend.Fleet.Transitions

/-!
# Shelf rows say what is on the shelves

A battery has a shelf row exactly when it is on a shelf, one row, of the shelf it is on.  The code
finds the row of a battery by the battery's serial in any letter case, so for two batteries whose
serials are the same up to case and padding one row stands for both (`shelf_row_shared`).  Where no
two are, a transition that returns keeps the invariant and one that raises moves nothing
(`shelf_invariant_transition`).
-/

namespace WezuBackend.Fleet.Shelf

open Lib.Tables Lib.Atomicity Core.Base Core.Letters Fleet.Model Fleet.Consistency
open Fleet.Transitions

section

variable [Casing]

/-- The row is the battery's, as the code looks it up. -/
def RowOf (battery : Battery) (row : ShelfBattery) : Prop :=
  sqlUpper row.batteryId = normal battery.serialNumber

instance (battery : Battery) (row : ShelfBattery) : Decidable (RowOf battery row) := by
  unfold RowOf
  infer_instance

/-- The rows of a battery: at most one, one exactly if it is on a shelf, and of that shelf. -/
structure ShelfState (rows : Table ShelfBattery) (battery : Battery) : Prop where
  once : ∀ r ∈ rows, ∀ r' ∈ rows, RowOf battery r → RowOf battery r' → r = r'
  shelved : (∃ r ∈ rows, RowOf battery r) ↔ battery.locationType = some .shelf
  place : ∀ r ∈ rows, RowOf battery r → battery.locationId = some r.shelfId

def ShelfInvariant (db : Db) : Prop := ∀ b ∈ db.batteries, ShelfState db.shelfBatteries b

/-- No two batteries have one serial up to case and padding. -/
def SerialsApart (db : Db) : Prop :=
  ∀ b ∈ db.batteries, ∀ b' ∈ db.batteries,
    normal b.serialNumber = normal b'.serialNumber → b.id = b'.id

structure TransitionKeeps (battery : Battery) (db db' : Db) : Prop where
  invariant : ShelfInvariant db'
  apart : SerialsApart db'
  others : ∀ b : Battery, b.id ≠ battery.id → (b ∈ db'.batteries ↔ b ∈ db.batteries)
  otherRows : ∀ r, ¬ RowOf battery r → (r ∈ db'.shelfBatteries ↔ r ∈ db.shelfBatteries)
  room : ∀ r ∈ db'.shelfBatteries, r ∉ db.shelfBatteries →
    ∀ shelf ∈ db'.shelves, shelf.id = r.shelfId →
      (db'.shelfBatteries.filter fun x => x.shelfId = shelf.id).length ≤ shelf.capacity
  transit : ∀ b ∈ db'.batteries, b.id = battery.id → b.locationType = some .transit →
    b.status = .inTransit ∨ b.status = .deployed
  station : ∀ b ∈ db'.batteries, b.id = battery.id →
    b.stationId = if b.locationType = some .station then b.locationId else none

/-- What a transition of the battery that raises keeps: the battery may be under another case and
padding of its serial, `updated_at` stamped with it, and there is no other change. -/
structure RefusalKeeps (battery : Battery) (db db' : Db) : Prop where
  rows : db'.shelfBatteries = db.shelfBatteries
  events : db'.batteryLifecycleEvents = db.batteryLifecycleEvents
  batteries : ∃ now serial, normal serial = normal battery.serialNumber ∧
    db'.batteries = db.batteries.set (renamed now serial battery)

variable {now : ℕ} {args : Transition} {battery : Battery}

/-! ## The rows after a transition -/

variable {a : Option ShelfBattery} {db db' : Db}

theorem RowOf.congr {b b' : Battery} (h : normal b.serialNumber = normal b'.serialNumber)
    (r : ShelfBattery) : RowOf b r ↔ RowOf b' r := by
  unfold RowOf
  rw [h]

theorem ShelfState.congr {rows rows' : Table ShelfBattery} {b : Battery} (h : ShelfState rows b)
    (hrows : ∀ r, RowOf b r → (r ∈ rows' ↔ r ∈ rows)) : ShelfState rows' b where
  once r hr r' hr' hb hb' := h.once r ((hrows r hb).mp hr) r' ((hrows r' hb').mp hr') hb hb'
  shelved := by
    rw [← h.shelved]
    exact ⟨fun ⟨r, hr, hb⟩ => ⟨r, (hrows r hb).mp hr, hb⟩,
      fun ⟨r, hr, hb⟩ => ⟨r, (hrows r hb).mpr hr, hb⟩⟩
  place r hr hb := h.place r ((hrows r hb).mp hr) hb

/-- The assignment is the row of the serial, if there is one. -/
def Assigned (rows : Table ShelfBattery) (serial : String) (a : Option ShelfBattery) : Prop :=
  ∀ r, (r ∈ rows ∧ sqlUpper r.batteryId = serial) ↔ a = some r

section Rows

variable {shelves : Table Shelf} {rows rows' : Table ShelfBattery} {serial : String}
  {type : Option LocationType} {k : Option ℕ}

variable {r : ShelfBattery}

theorem Assigned.mem_dropped (h : Assigned rows serial a) :
    r ∈ dropped rows a ↔ r ∈ rows ∧ sqlUpper r.batteryId ≠ serial := by
  rw [Transitions.mem_dropped fun x hx => ((h x).mpr hx).1]
  refine and_congr_right fun hr => not_congr ⟨fun ha => ((h r).mpr ha).2, fun hs => ?_⟩
  exact (h r).mp ⟨hr, hs⟩

theorem Assigned.mem_of_ne (h : Assigned rows serial a)
    (hr : Reshelved shelves rows serial a type k rows') (hserial : sqlUpper serial = serial)
    (hne : sqlUpper r.batteryId ≠ serial) : r ∈ rows' ↔ r ∈ rows := by
  have hdrop : r ∈ dropped rows a ↔ r ∈ rows := h.mem_dropped.trans (and_iff_left hne)
  cases hr with
  | kept => exact Iff.rfl
  | shelved =>
    rw [Table.mem_add_mk fun _ => rfl, hdrop]
    refine or_iff_left ?_
    rintro rfl
    exact hne hserial
  | cleared => exact hdrop

/-- The row of the serial: there is one exactly on a shelf, and it is of the shelf. -/
theorem Assigned.state (h : Assigned rows serial a)
    (hr : Reshelved shelves rows serial a type k rows') (hserial : sqlUpper serial = serial) :
    (type = some .shelf ∧ ∃ r ∈ rows', sqlUpper r.batteryId = serial ∧ k = some r.shelfId ∧
      ∀ x ∈ rows', sqlUpper x.batteryId = serial → x = r) ∨
    (type ≠ some .shelf ∧ ∀ x ∈ rows', sqlUpper x.batteryId ≠ serial) := by
  cases hr with
  | @kept r ha =>
    obtain ⟨hmem, hs⟩ := (h r).mpr ha
    refine .inl ⟨rfl, r, hmem, hs, rfl, fun x hx hxs => ?_⟩
    exact Option.some.inj (((h x).mp ⟨hx, hxs⟩).symm.trans ha)
  | @shelved k shelf hsh hne hroom =>
    refine .inl ⟨rfl, ⟨_, k, serial⟩, (Table.mem_add_mk fun _ => rfl).mpr (.inr rfl), hserial, rfl,
      fun x hx hxs => ?_⟩
    rcases (Table.mem_add_mk fun _ => rfl).mp hx with hx | hx
    · exact absurd hxs (h.mem_dropped.mp hx).2
    · exact hx
  | cleared ht => exact .inr ⟨ht, fun x hx => (h.mem_dropped.mp hx).2⟩

theorem Assigned.room (h : Assigned rows serial a)
    (hr : Reshelved shelves rows serial a type k rows') (hmem : r ∈ rows')
    (hnew : r ∉ rows) {shelf : Shelf} (hshelf : shelf ∈ shelves) (hid : shelf.id = r.shelfId) :
    (rows'.filter fun x => x.shelfId = shelf.id).length ≤ shelf.capacity := by
  cases hr with
  | kept => exact absurd hmem hnew
  | @shelved k shelf' hsh hne hroom =>
    rcases (Table.mem_add_mk fun _ => rfl).mp hmem with hold | rfl
    · exact absurd (h.mem_dropped.mp hold).1 hnew
    · obtain ⟨hs, hk⟩ := Table.get?_eq_some.mp hsh
      have hsame : shelf = shelf' := Table.eq_of_key hshelf hs (hid.trans hk.symm)
      have hsub : (dropped rows a).rows.Sublist rows.rows := by
        rcases a with _ | x
        · exact List.Sublist.refl _
        · exact List.filter_sublist
      have hle := (hsub.filter fun x => decide (x.shelfId = k)).length_le
      rw [hid, hsame]
      simp only [Table.filter, Table.add, Table.insert, List.filter_append, List.length_append]
      simp
      omega
  | cleared => exact absurd (h.mem_dropped.mp hmem).1 hnew

end Rows

theorem shelfState_outcome (h : Transitioned now args battery a db db') :
    ShelfState db'.shelfBatteries (outcome now args battery) := by
  have hrow : ∀ r, RowOf (outcome now args battery) r ↔
      sqlUpper r.batteryId = normal battery.serialNumber := by
    intro r
    unfold RowOf
    rw [outcome_serialNumber, normal_normal]
  have hassigned : Assigned db.shelfBatteries (normal battery.serialNumber) a := h.assigned
  rcases hassigned.state h.reshelved (sqlUpper_normal _) with
    ⟨htype, r, hr, hs, hk, honly⟩ | ⟨htype, hnone⟩
  · have hplace : (outcome now args battery).locationId = some r.shelfId := by
      rw [outcome_locationId, storedLocationId_of_requiring htype (by decide), hk]
    refine ⟨fun x hx y hy hbx hby => ?_, ⟨fun _ => ?_, fun _ => ⟨r, hr, (hrow r).mpr hs⟩⟩,
      fun x hx hbx => ?_⟩
    · rw [honly x hx ((hrow x).mp hbx), honly y hy ((hrow y).mp hby)]
    · rw [outcome_locationType, htype]
    · rw [honly x hx ((hrow x).mp hbx), hplace]
  · have hno : ∀ x ∈ db'.shelfBatteries, ¬ RowOf (outcome now args battery) x :=
      fun x hx hbx => hnone x hx ((hrow x).mp hbx)
    refine ⟨fun x hx _ _ hbx => absurd hbx (hno x hx), ⟨?_, fun hshelf => ?_⟩,
      fun x hx hbx => absurd hbx (hno x hx)⟩
    · rintro ⟨x, hx, hbx⟩
      exact absurd hbx (hno x hx)
    · rw [outcome_locationType] at hshelf
      exact absurd hshelf htype

/-! ## Every transition -/

/-- **A transition that returns** keeps the shelf rows in step with the batteries. -/
theorem TransitionKeeps.of_transitioned (h : Transitioned now args battery a db db')
    (hb : battery ∈ db.batteries) (hinv : ShelfInvariant db) (hapart : SerialsApart db) :
    TransitionKeeps battery db db' := by
  have hassigned : Assigned db.shelfBatteries (normal battery.serialNumber) a := h.assigned
  have hrows : ∀ r, ¬ RowOf battery r → (r ∈ db'.shelfBatteries ↔ r ∈ db.shelfBatteries) :=
    fun r hr => hassigned.mem_of_ne h.reshelved (sqlUpper_normal _) hr
  have hshelves : db'.shelves = db.shelves := by rw [h.rest]
  have hself : ∀ b ∈ db'.batteries, b.id = battery.id → b = outcome now args battery := by
    intro b hmem hid
    rcases (h.mem_batteries hb).mp hmem with heq | ⟨-, hne⟩
    · exact heq
    · exact absurd hid hne
  have hold : ∀ b ∈ db'.batteries, ∃ b₀ ∈ db.batteries, b₀.id = b.id ∧
      normal b.serialNumber = normal b₀.serialNumber := by
    intro b hmem
    rcases (h.mem_batteries hb).mp hmem with rfl | ⟨hmem₀, -⟩
    · exact ⟨battery, hb, (outcome_id _ _ _).symm, by rw [outcome_serialNumber, normal_normal]⟩
    · exact ⟨b, hmem₀, rfl, rfl⟩
  refine ⟨fun b hmem => ?_, fun b hmem b' hmem' hserial => ?_, fun b hne => ?_, hrows, ?_, ?_, ?_⟩
  · rcases (h.mem_batteries hb).mp hmem with rfl | ⟨hmem₀, hne⟩
    · exact shelfState_outcome h
    · -- no row of this battery is a row of the one that moved
      refine (hinv b hmem₀).congr fun r hr => hrows r fun hbattery => hne ?_
      exact hapart b hmem₀ battery hb (hr.symm.trans hbattery)
  · obtain ⟨b₀, hb₀, hid, hs⟩ := hold b hmem
    obtain ⟨b₀', hb₀', hid', hs'⟩ := hold b' hmem'
    rw [← hid, ← hid']
    exact hapart b₀ hb₀ b₀' hb₀' (by rw [← hs, ← hs', hserial])
  · rw [h.mem_batteries hb]
    constructor
    · rintro (rfl | ⟨hmem, -⟩)
      · exact absurd (outcome_id _ _ _) hne
      · exact hmem
    · exact fun hmem => .inr ⟨hmem, hne⟩
  · intro r hr hnew shelf hshelf hid
    rw [hshelves] at hshelf
    exact hassigned.room h.reshelved hr hnew hshelf hid
  · intro b hmem hid htransit
    rw [hself b hmem hid, outcome_locationType] at htransit
    rw [hself b hmem hid, outcome_status]
    have hstatus := h.compatible htransit
    simpa [transitCompatibleStatuses] using hstatus
  · intro b hmem hid
    rw [hself b hmem hid]
    exact h.outcome_station

/-- **The shelf rows over a transition.** -/
theorem shelf_invariant_transition (now : ℕ) (args : Transition) (s : Session Db)
    (battery : Battery) (hb : battery ∈ s.working.batteries) (hinv : ShelfInvariant s.working)
    (hapart : SerialsApart s.working) :
    match applyBatteryTransition now battery args s with
    | (.ok _, t) => TransitionKeeps battery s.working t.working
    | (.error _, t) => RefusalKeeps battery s.working t.working := by
  rcases h : applyBatteryTransition now battery args s with ⟨e | b, t⟩
  · show RefusalKeeps battery s.working t.working
    rcases applyBatteryTransition_error h with rfl | rfl
    · refine ⟨rfl, rfl, 0, battery.serialNumber, rfl, ?_⟩
      have hself : renamed 0 battery.serialNumber battery = battery := by
        unfold renamed
        rw [if_pos rfl]
      rw [hself, Table.set_self hb]
    · exact ⟨rfl, rfl, now, normal battery.serialNumber, normal_normal _, rfl⟩
  · obtain ⟨-, -, a, htransitioned⟩ := applyBatteryTransition_ok h
    exact .of_transitioned htransitioned hb hinv hapart

end

/-! ## A move to a shelf -/

def batteryAt (id : ℕ) (serialNumber : String) : Battery where
  id := id
  serialNumber := serialNumber
  locationId := some 1

/-- A warehouse with one shelf and two batteries beside it. -/
def shelfStore (first second : String) : Db where
  batteries := ⟨[batteryAt 1 first, batteryAt 2 second], by simp [batteryAt]⟩
  warehouses := ⟨[{ id := 1 }], by decide⟩
  racks := ⟨[{ id := 1, warehouseId := 1 }], by decide⟩
  shelves := ⟨[{ id := 1, rackId := 1, capacity := 2 }], by decide⟩

def toShelf (shelfId : ℕ) : Transition where
  eventType := "moved"
  eventDescription := "Moved to shelf"
  toLocationType := some .shelf
  toLocationId := some (some shelfId)

def shelved (first second : String) (shelfId : ℕ) : Except Exc Battery × Session Db :=
  applyBatteryTransition 7 (batteryAt 1 first) (toShelf shelfId) (.fresh (shelfStore first second))

instance (rows : Table ShelfBattery) (battery : Battery) : Decidable (ShelfState rows battery) :=
  decidable_of_iff
    ((∀ r ∈ rows, ∀ r' ∈ rows, RowOf battery r → RowOf battery r' → r = r') ∧
      ((∃ r ∈ rows.rows, RowOf battery r) ↔ battery.locationType = some .shelf) ∧
      ∀ r ∈ rows, RowOf battery r → battery.locationId = some r.shelfId)
    ⟨fun ⟨h₁, h₂, h₃⟩ => ⟨h₁, h₂, h₃⟩, fun ⟨h₁, h₂, h₃⟩ => ⟨h₁, h₂, h₃⟩⟩

instance (db : Db) : Decidable (ShelfInvariant db) := by
  unfold ShelfInvariant
  infer_instance

instance (db : Db) : Decidable (SerialsApart db) := by
  unfold SerialsApart
  infer_instance

theorem shelf_invariant_transition_sample : (shelved "b1" "B2" 1).1.isOk = true ∧
    TransitionKeeps (batteryAt 1 "b1") (shelfStore "b1" "B2") (shelved "b1" "B2" 1).2.working := by
  have h := shelf_invariant_transition 7 (toShelf 1) (.fresh (shelfStore "b1" "B2"))
    (batteryAt 1 "b1") List.mem_cons_self (by decide) (by decide)
  have hok : (shelved "b1" "B2" 1).1.isOk = true := by decide
  rcases hres : shelved "b1" "B2" 1 with ⟨e | b, t⟩
  · rw [hres] at hok
    cases hok
  · refine ⟨rfl, ?_⟩
    rw [show applyBatteryTransition 7 (batteryAt 1 "b1") (toShelf 1)
      (.fresh (shelfStore "b1" "B2")) = (.ok b, t) from hres] at h
    exact h

/-- **One row for two batteries**: with the first on the shelf, the second has a row and is not on
a shelf.  And a move to no shelf at all stamps the battery whose serial it has put in upper case. -/
theorem shelf_row_shared :
    (ShelfInvariant (shelfStore "B1" "b1") ∧ UniqueIndexes (shelfStore "B1" "b1") ∧
      (shelved "B1" "b1" 1).1.isOk = true ∧ ¬ ShelfInvariant (shelved "B1" "b1" 1).2.working) ∧
    (shelved "b1" "B2" 2).1.isOk = false ∧
      (shelved "b1" "B2" 2).2.working.batteries.rows.map Battery.updatedAt = [7, 0] := by
  refine ⟨⟨?_, ?_, ?_, ?_⟩, ?_, ?_⟩ <;> decide

end WezuBackend.Fleet.Shelf
