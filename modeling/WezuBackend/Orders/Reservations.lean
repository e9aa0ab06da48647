import WezuBackend.Orders.Endings

/-!
# Batteries that are reserved and dispatched

A battery is reserved where it is, and then dispatched from there; both check that the battery's
row and its shelf row agree.  `moves_reserve` and `moves_dispatch` say what each asks of a battery
beside its transition: a reservation is refused for a battery at a customer's, a dispatch is not.
-/

namespace WezuBackend.Orders.Reservations

open Lib.Tables Lib.Atomicity Lib.Atomicity.Tx Core.Letters Fleet.Model Fleet.Consistency
open Fleet.Transitions Fleet.Acceptance Fleet.Sequences Orders.DispatchEvents Orders.Service
open Orders.Effects Orders.Endings

section

variable [Casing]

variable {now : ℕ} {order : Order} {orderId : String} {exclude : Option String}
  {actorId : Option ℕ} {b : Battery} {db : Db} {s t : Session Db} {l : List Battery}

/-! ## The shelf row -/

def OnItsShelf (db : Db) (b : Battery) : Prop :=
  ∃ row, shelfRows db (normal b.serialNumber) = [row] ∧ b.locationId = some row.shelfId

theorem assertShelfState_iff (hu : UniqueIndexes s.working) (hname : normal b.serialNumber ≠ "")
    (hshelf : b.locationType = some .shelf) :
    assertBatteryShelfStateConsistent b s = (.ok (), s) ↔ OnItsShelf s.working b := by
  unfold assertBatteryShelfStateConsistent OnItsShelf
  rw [lift_bind (normalizeBatterySerial_ok.mpr ⟨hname, rfl⟩)]
  simp only [if_pos hshelf]
  constructor
  · intro h
    obtain ⟨assignment, s₁, hassignment, h⟩ := bind_ok.mp h
    obtain rfl := (readOnly_getShelfAssignment _).eq hassignment
    have honce := getShelfAssignment_once hassignment
    rw [getShelfAssignment_of_once hu honce] at hassignment
    obtain ⟨k, s₂, hfirst, h⟩ := bind_ok.mp h
    obtain ⟨hk, rfl⟩ := demand_ok.mp hfirst
    obtain ⟨row, s₂, hsecond, h⟩ := bind_ok.mp h
    obtain ⟨rfl, rfl⟩ := demand_ok.mp hsecond
    have hplace := (ensure_ok.mp h).1
    have hhead := Except.ok.inj (Prod.mk.inj hassignment).1
    rcases hrows : shelfRows s₁.working (normal b.serialNumber) with _ | ⟨first, rest⟩
    · rw [hrows] at hhead
      cases hhead
    · rw [hrows] at hhead honce
      obtain rfl := Option.some.inj hhead
      have hrest : rest = [] := List.length_eq_zero_iff.mp (by simpa using honce)
      exact ⟨first, by rw [hrest], by rw [hk, hplace]⟩
  · rintro ⟨row, hrows, hplace⟩
    have honce : (shelfRows s.working (normal b.serialNumber)).length ≤ 1 := by
      rw [hrows]
      exact le_rfl
    rw [bind_of_ok (getShelfAssignment_of_once hu honce), demand_bind hplace, hrows]
    exact (demand_bind rfl _ _ _).trans (ensure_ok.mpr ⟨rfl, rfl⟩)

theorem onItsShelf_next {goes : Battery → Transition} {before after : List Battery}
    (hafter : After now goes db before s.working) (hapart : Apart db l)
    (hl : l = before ++ b :: after) :
    OnItsShelf (writtenUnder now b s).working (underSerial now b) ↔ OnItsShelf db b := by
  have hrows := hafter.shelfRows_eq hapart hl
  unfold OnItsShelf
  rw [normal_underSerial, show shelfRows (writtenUnder now b s).working (normal b.serialNumber) =
    shelfRows s.working (normal b.serialNumber) from rfl, hrows]
  exact Iff.rfl

/-! ## Reservations -/

def reserved (orderId : String) (exclude : Option String) (b : Battery) : Transition :=
  { toStatus := some .reserved, toLocationType := b.locationType,
    toLocationId := some b.locationId, eventType := "reserved",
    eventDescription := s!"Reserved for order {orderId}", excludeOrderId := exclude }

structure Reservable (db : Db) (b : Battery) : Prop where
  status : b.status ∈ transferableBatteryStatuses
  place : isInventoryPlace b.locationType = true
  located : b.locationId.isSome
  shelf : b.locationType = some .shelf → OnItsShelf db b

theorem reserveBattery_iff (hname : normal b.serialNumber ≠ "")
    (hu : UniqueIndexes (writtenUnder now b s).working) :
    reserveBattery now orderId exclude b s = (.ok (), t) ↔
      Reservable (writtenUnder now b s).working (underSerial now b) ∧
        ∃ b', applyBatteryTransition now (underSerial now b) (reserved orderId exclude b)
          (writtenUnder now b s) = (.ok b', t) := by
  have hname' : normal (underSerial now b).serialNumber ≠ "" := by rwa [normal_underSerial]
  rw [reserveBattery, bind_of_ok (withSerial_eq hname)]
  constructor
  · intro h
    obtain ⟨_, s₁, hfirst, h⟩ := bind_ok.mp h
    obtain ⟨hstatus, rfl⟩ := ensure_ok.mp hfirst
    obtain ⟨_, s₁, hsecond, h⟩ := bind_ok.mp h
    obtain ⟨hplace, rfl⟩ := ensure_ok.mp hsecond
    obtain ⟨_, s₁, hthird, h⟩ := bind_ok.mp h
    obtain ⟨hlocated, rfl⟩ := ensure_ok.mp hthird
    by_cases hshelf : (underSerial now b).locationType = some .shelf
    · rw [if_pos hshelf] at h
      obtain ⟨_, s₁, hassert, h⟩ := bind_ok.mp h
      obtain rfl := (readOnly_assertBatteryShelfStateConsistent _).eq hassert
      obtain ⟨b', s₁, hrun, h⟩ := bind_ok.mp h
      obtain ⟨-, rfl⟩ := pure_ok.mp h
      have honshelf := (assertShelfState_iff hu hname' hshelf).mp hassert
      exact ⟨⟨hstatus, hplace, hlocated, fun _ => honshelf⟩, b', hrun⟩
    · rw [if_neg hshelf] at h
      obtain ⟨b', s₁, hrun, h⟩ := bind_ok.mp h
      obtain ⟨-, rfl⟩ := pure_ok.mp h
      exact ⟨⟨hstatus, hplace, hlocated, fun hon => absurd hon hshelf⟩, b', hrun⟩
  · rintro ⟨h, b', hrun⟩
    rw [ensure_bind h.status, ensure_bind h.place, ensure_bind h.located]
    by_cases hshelf : (underSerial now b).locationType = some .shelf
    · rw [if_pos hshelf, bind_of_ok ((assertShelfState_iff hu hname' hshelf).mpr (h.shelf hshelf))]
      exact (bind_of_ok hrun).trans rfl
    · rw [if_neg hshelf]
      exact (bind_of_ok hrun).trans rfl

theorem moves_reserve (hapart : Apart db l) :
    Moves now (reserved orderId exclude) (Reservable db) (reserveBattery now orderId exclude) db
      l := by
  intro before b after s t hl hafter
  have hshelf := onItsShelf_next hafter hapart hl
  rw [reserveBattery_iff (hapart.named b (hapart.next hl).1) (hafter.unique_next hapart hl)]
  refine and_congr_left fun _ => ?_
  constructor
  · exact fun h => ⟨h.status, h.place, h.located, fun hon => hshelf.mp (h.shelf hon)⟩
  · exact fun h => ⟨h.status, h.place, h.located, fun hon => hshelf.mpr (h.shelf hon)⟩

/-! ## Dispatches -/

/-- The battery goes onto the road. -/
def dispatched (order : Order) (actorId : Option ℕ) (b : Battery) : Transition :=
  { toStatus := some .deployed, toLocationType := some .transit, toLocationId := some none,
    eventType := "dispatched",
    eventDescription := buildDispatchEventDescription order.id
      (b.locationType.getD .transit) b.locationId, actorId, excludeOrderId := some order.id }

structure Dispatchable (db : Db) (b : Battery) : Prop where
  place : isInventoryPlace b.locationType = true ∨ b.locationType = some .customer
  located : isInventoryPlace b.locationType = true → b.locationId.isSome
  shelf : b.locationType = some .shelf → OnItsShelf db b

theorem dispatchBattery_iff (hname : normal b.serialNumber ≠ "") (hu : UniqueIndexes s.working) :
    dispatchBattery now order actorId b s = (.ok (), t) ↔ Dispatchable s.working b ∧
      ∃ b', applyBatteryTransition now b (dispatched order actorId b) s = (.ok b', t) := by
  unfold dispatchBattery
  rcases htype : b.locationType with _ | type
  · refine iff_of_false (fun h => ?_) fun h => ?_
    · obtain ⟨_, _, hdemand, -⟩ := bind_ok.mp h
      have hnone := (demand_ok.mp hdemand).1
      cases hnone
    · rcases h.1.place with hplace | hplace
      · rw [htype] at hplace
        cases hplace
      · rw [htype] at hplace
        cases hplace
  have hshelf : b.locationType = some .shelf ↔ type = .shelf := by
    rw [htype, Option.some_inj]
  have htransition : dispatched order actorId b =
      { toStatus := some .deployed, toLocationType := some .transit, toLocationId := some none,
        eventType := "dispatched",
        eventDescription := buildDispatchEventDescription order.id type b.locationId, actorId,
        excludeOrderId := some order.id } := by
    unfold dispatched
    rw [htype]
    rfl
  constructor
  · intro h
    obtain ⟨type', s₁, hdemand, h⟩ := bind_ok.mp h
    obtain ⟨hfilter, rfl⟩ := demand_ok.mp hdemand
    obtain ⟨heq, hplace⟩ := Option.filter_eq_some_iff.mp hfilter
    obtain rfl := Option.some.inj heq
    obtain ⟨_, s₁, hensure, hrest⟩ := bind_ok.mp h
    obtain ⟨hlocated, rfl⟩ := ensure_ok.mp hensure
    have hplace' : isInventoryPlace b.locationType = true ∨ b.locationType = some .customer := by
      rw [htype, Option.some_inj]
      exact of_decide_eq_true hplace
    rw [← htype] at hlocated
    by_cases hon : type = .shelf
    · rw [if_pos hon] at hrest
      obtain ⟨_, s₁, hassert, hmove⟩ := bind_ok.mp hrest
      obtain rfl := (readOnly_assertBatteryShelfStateConsistent _).eq hassert
      obtain ⟨b', s₁, hrun, hend⟩ := bind_ok.mp hmove
      obtain ⟨-, rfl⟩ := pure_ok.mp hend
      have honshelf := (assertShelfState_iff hu hname (hshelf.mpr hon)).mp hassert
      exact ⟨⟨hplace', hlocated, fun _ => honshelf⟩, b', htransition ▸ hrun⟩
    · rw [if_neg hon] at hrest
      obtain ⟨b', s₁, hrun, hend⟩ := bind_ok.mp hrest
      obtain ⟨-, rfl⟩ := pure_ok.mp hend
      exact ⟨⟨hplace', hlocated, fun hon' => absurd (hshelf.mp hon') hon⟩, b', htransition ▸ hrun⟩
  · rintro ⟨h, b', hrun⟩
    have hplace := h.place
    rw [htype, Option.some_inj] at hplace
    have hfilter : (some type).filter (fun type =>
        isInventoryPlace (some type) ∨ type = .customer) = some type :=
      Option.filter_eq_some_iff.mpr ⟨rfl, decide_eq_true hplace⟩
    rw [demand_bind hfilter, ensure_bind (htype ▸ h.located)]
    rw [htransition] at hrun
    by_cases hon : type = .shelf
    · rw [if_pos hon,
        bind_of_ok
          ((assertShelfState_iff hu hname (hshelf.mpr hon)).mpr (h.shelf (hshelf.mpr hon)))]
      exact (bind_of_ok hrun).trans rfl
    · rw [if_neg hon]
      exact (bind_of_ok hrun).trans rfl

variable {failureReason : Option String}

theorem moves_dispatch (hapart : Apart db l) :
    Moves now (dispatched order actorId) (Dispatchable db)
      (syncBattery now order "in_transit" failureReason actorId) db l := by
  intro before b after s t hl hafter
  have hname := hapart.named b (hapart.next hl).1
  have hname' : normal (underSerial now b).serialNumber ≠ "" := by rwa [normal_underSerial]
  have hshelf := onItsShelf_next hafter hapart hl
  have hsync : syncBattery now order "in_transit" failureReason actorId b s =
      dispatchBattery now order actorId (underSerial now b) (writtenUnder now b s) := by
    rw [syncBattery, bind_of_ok (withSerial_eq hname)]
    rfl
  rw [hsync, dispatchBattery_iff hname' (hafter.unique_next hapart hl)]
  refine and_congr_left fun _ => ?_
  constructor
  · exact fun h => ⟨h.place, h.located, fun hon => hshelf.mp (h.shelf hon)⟩
  · exact fun h => ⟨h.place, h.located, fun hon => hshelf.mpr (h.shelf hon)⟩

/-- An update to `pending` moves no battery; it writes the serials. -/
theorem syncBattery_pending (hb : b ∈ s.working.batteries)
    (hserial : normal b.serialNumber = b.serialNumber) (hname : b.serialNumber ≠ "") :
    syncBattery now order "pending" failureReason actorId b s = (.ok (), s) := by
  have hsame : underSerial now b = b := by
    unfold underSerial renamed
    rw [hserial, if_pos rfl]
  have hwritten : writtenUnder now b s = s := by
    unfold writtenUnder
    rw [hsame, Table.set_self hb]
  rw [syncBattery, bind_of_ok (withSerial_eq (hserial.symm ▸ hname)), hwritten]
  rfl

theorem syncBatteries_pending
    (h : ∀ b ∈ l, b ∈ s.working.batteries ∧ normal b.serialNumber = b.serialNumber ∧
      b.serialNumber ≠ "") :
    l.forM (syncBattery now order "pending" failureReason actorId) s = (.ok (), s) := by
  induction l with
  | nil => rfl
  | cons b l ih =>
    obtain ⟨hb, hserial, hname⟩ := h b List.mem_cons_self
    rw [show (b :: l).forM (syncBattery now order "pending" failureReason actorId) =
      syncBattery now order "pending" failureReason actorId b >>= fun _ =>
        l.forM (syncBattery now order "pending" failureReason actorId) from rfl,
      bind_of_ok (syncBattery_pending hb hserial hname)]
    exact ih fun x hx => h x (List.mem_cons_of_mem _ hx)

end

end WezuBackend.Orders.Reservations
