import WezuBackend.Fleet.Transitions
import WezuBackend.Rental.Service

/-!
# What the rental services do

For each operation, taken before its commit: what it has checked, which rental it has written and
where it has moved which battery.  None of them commits (`tentative_…`), so a call that raises has
changed nothing but what an operation before it has committed.
-/

namespace WezuBackend.Rental.Effects

open Lib.Tables Lib.Atomicity Lib.Atomicity.Tx Core.Letters Core.Text Fleet.Model
open Fleet.Consistency Fleet.Transitions Rental.Service

/-! ## Commits -/

variable {I : Db → Prop}

theorem keeps_safeCommit : Keeps I safeCommit :=
  (readOnly_flush.keeps.bind fun _ => keeps_commit).handle_rollback fun e =>
    (readOnly_raise e).keeps

theorem safeCommit_eq (s : Session Db) :
    safeCommit s = if UniqueIndexes s.working then (.ok (), ⟨s.working, s.working⟩)
      else (.error .integrityError, ⟨s.committed, s.committed⟩) := by
  have h := commitAll_eq s
  unfold safeCommit
  split_ifs at h ⊢
  · exact handle_of_ok h
  · exact handle_of_error h

theorem call_safeCommit {α : Type} (x : FleetTx α) (db : Db) :
    (x >>= fun a => safeCommit >>= fun _ => pure a).call db = (committing x).call db := by
  rcases h : x (.fresh db) with ⟨e | a, s⟩
  · rw [committing, call_eq (bind_of_error h), call_eq (bind_of_error h)]
  · have hcommit := committing_of_ok h
    have hsafe := safeCommit_eq s
    split_ifs at hcommit hsafe
    · rw [call_eq hcommit, call_eq ((bind_of_ok h).trans (bind_of_ok hsafe))]
    · rw [call_eq hcommit, call_eq ((bind_of_ok h).trans (bind_of_error hsafe))]

theorem keeps_unlessSkipped (skip : Bool) {x : FleetTx Unit} (hx : Keeps I x) :
    Keeps I (unlessSkipped skip x) := by
  unfold unlessSkipped
  split_ifs
  · exact (readOnly_pure ()).keeps
  · exact hx

/-! ## Checks, prices and payments -/

theorem readOnly_checkRentable (rentalIn : RentalCreate) (battery : Battery) :
    ReadOnly (checkRentable rentalIn battery) :=
  (readOnly_ensure _ _).bind fun _ => (readOnly_ensure _ _).bind fun _ => readOnly_ensure _ _

theorem readOnly_rentableBattery (userId : ℕ) (rentalIn : RentalCreate) :
    ReadOnly (rentableBattery userId rentalIn) := by
  refine readOnly_query.bind fun db => (readOnly_ensure _ _).bind fun _ => ?_
  refine (readOnly_demand _ _).bind fun battery => (readOnly_checkRentable _ _).bind fun _ => ?_
  exact (readOnly_ensure _ _).bind fun _ => readOnly_pure _

variable {rentalIn : RentalCreate} {s t : Session Db} {userId : ℕ}

theorem rentableBattery_ok {b : Battery} (h : rentableBattery userId rentalIn s = (.ok b, t)) :
    t = s ∧ b ∈ s.working.batteries ∧ b.id = rentalIn.batteryId ∧
      ∀ r ∈ s.working.rentals, isLive r → r.batteryId ≠ rentalIn.batteryId := by
  have hst := (readOnly_rentableBattery userId rentalIn).eq h
  simp only [rentableBattery, bind_ok, query_ok, ensure_ok, demand_ok, pure_ok] at h
  obtain ⟨db, s₁, ⟨-, rfl, h₁⟩, _, _, -, battery, s₂, ⟨hbattery, -⟩, h⟩ := h
  obtain ⟨_, _, -, _, _, ⟨hfree, -⟩, rfl, -⟩ := h
  obtain ⟨hmem, hid⟩ := Table.get?_eq_some.mp hbattery
  refine ⟨hst, hmem, hid, fun r hr hlive hrid => ?_⟩
  have hlisted : r ∈ s.working.rentals.filter
      (fun r => r.batteryId = rentalIn.batteryId ∧ isLive r) :=
    Table.mem_filter.mpr ⟨hr, decide_eq_true ⟨hrid, hlive⟩⟩
  rw [hfree] at hlisted
  cases hlisted

variable {u : Unit}

variable {k : Option ℕ}

theorem reservePromo_ok (h : reservePromo k s = (.ok u, t)) :
    t.working.rentals = s.working.rentals ∧ t.working.batteries = s.working.batteries := by
  unfold reservePromo at h
  rcases hk : k.filter (· ≠ 0) with _ | n
  · rw [hk] at h
    obtain ⟨-, rfl⟩ := pure_ok.mp h
    exact ⟨rfl, rfl⟩
  · rw [hk] at h
    simp only [bind_ok, query_ok, demand_ok, update_ok] at h
    obtain ⟨_, _, ⟨-, rfl, rfl⟩, _, _, ⟨-, rfl⟩, rfl⟩ := h
    exact ⟨rfl, rfl⟩

theorem tentative_reservePromo (k : Option ℕ) : Tentative (reservePromo k) := by
  unfold reservePromo
  split
  · exact (readOnly_pure ()).tentative
  · refine readOnly_query.tentative.bind fun _ => (readOnly_demand _ _).tentative.bind fun _ => ?_
    exact tentative_update _

theorem addRental_ok {rental : ℕ → Rental} {hkey : ∀ k, Row.key (rental k) = k}
    {k : ℕ} (h : addRental rental hkey s = (.ok k, t)) :
    k = s.working.rentals.freshKey ∧ t.working.rentals = s.working.rentals.add rental hkey ∧
      t.working.batteries = s.working.batteries := by
  simp only [addRental, bind_ok, look_ok, update_ok, flush_ok, pure_ok] at h
  obtain ⟨_, _, ⟨rfl, rfl⟩, _, _, rfl, _, _, ⟨-, rfl⟩, rfl, rfl⟩ := h
  exact ⟨rfl, rfl, rfl⟩

theorem readOnly_checkPayment (rental : Rental) (proof : PaymentProof) (payment : GatewayPayment) :
    ReadOnly (checkPayment rental proof payment) := by
  refine (readOnly_ensure _ _).bind fun _ => (readOnly_ensure _ _).bind fun _ => ?_
  refine (readOnly_lift _).bind fun _ => (readOnly_lift _).bind fun _ => ?_
  refine (readOnly_ensure _ _).bind fun _ => (readOnly_ensure _ _).bind fun _ => ?_
  exact (readOnly_ensure _ _).bind fun _ => readOnly_pure _

/-- The gateway has the payment of the proof, settled and not below what the rental costs; both
amounts are in hundredths. -/
structure Covers (rental : Rental) (proof : PaymentProof) (payment : GatewayPayment) : Prop where
  order : payment.orderId = some proof.razorpayOrderId
  settled : lower (payment.status.getD "") = "captured" ∨
    lower (payment.status.getD "") = "authorized"
  enough : ∃ required paid, toMoney rental.totalAmount = .ok required ∧
    paidMoney (payment.amount.getD (.finite 0 0)) = .ok paid ∧ required ≤ paid

variable {proof : PaymentProof} {rental : Rental}

theorem checkPayment_ok {payment : GatewayPayment} {amounts : ℤ × ℤ}
    (h : checkPayment rental proof payment s = (.ok amounts, t)) :
    t = s ∧ Covers rental proof payment := by
  have hst := (readOnly_checkPayment rental proof payment).eq h
  simp only [checkPayment, bind_ok, ensure_ok, lift_ok] at h
  obtain ⟨_, _, ⟨horder, -⟩, _, _, ⟨hsettled, -⟩, required, _, ⟨hrequired, -⟩, h⟩ := h
  obtain ⟨paid, _, ⟨hpaid, -⟩, _, _, ⟨hle, -⟩, -⟩ := h
  exact ⟨hst, horder, hsettled, required, paid, hrequired, hpaid, hle⟩

variable {side : PaymentSide}

theorem settlePayment_ok {required paid : ℤ}
    (h : settlePayment side rental userId proof required paid s = (.ok u, t)) :
    side.hasReferenceColumns = true ∧ t.working.rentals = s.working.rentals ∧
      t.working.batteries = s.working.batteries := by
  rw [settlePayment, bind_ok] at h
  obtain ⟨_, s₁, hensure, h⟩ := h
  obtain ⟨hcolumns, rfl⟩ := ensure_ok.mp hensure
  rw [bind_ok] at h
  obtain ⟨db, s₂, hdb, h⟩ := h
  obtain ⟨-, rfl, rfl⟩ := query_ok.mp hdb
  dsimp only at h
  generalize s.working.paymentTransactions.find? _ = found at h
  rcases found with _ | txn
  · obtain rfl := update_ok.mp h
    exact ⟨hcolumns, rfl, rfl⟩
  · obtain rfl := update_ok.mp h
    exact ⟨hcolumns, rfl, rfl⟩

theorem tentative_settlePayment (side : PaymentSide) (rental : Rental) (userId : ℕ)
    (proof : PaymentProof) (required paid : ℤ) :
    Tentative (settlePayment side rental userId proof required paid) := by
  refine (readOnly_ensure _ _).tentative.bind fun _ => readOnly_query.tentative.bind fun db => ?_
  dsimp only
  generalize db.paymentTransactions.find? _ = found
  rcases found with _ | txn
  · exact tentative_update _
  · exact tentative_update _

theorem readOnly_confirmedBefore (side : PaymentSide) (rental : Rental) (proof : PaymentProof) :
    ReadOnly (confirmedBefore side rental proof) :=
  (readOnly_ensure _ _).bind fun _ => readOnly_query.bind fun _ => readOnly_ensure _ _

section

variable [Casing]

variable {now : ℕ}

/-- A transition with a status and a place, as the rental code makes them. -/
theorem transition_ok {battery b : Battery} {args : Transition}
    (h : applyBatteryTransition now battery args s = (.ok b, t))
    (hb : battery ∈ s.working.batteries)
    {status : BatteryStatus} {type : LocationType}
    (hstatus : args.toStatus = some status) (htype : args.toLocationType = some type)
    (hk : args.toLocationId = some k) :
    t.working.rentals = s.working.rentals ∧ b.id = battery.id ∧
      Moved s.working.batteries t.working.batteries battery.id status type k := by
  obtain ⟨rfl, -, a, hT⟩ := applyBatteryTransition_ok h
  exact ⟨by rw [hT.rest], outcome_id _ _ _, hT.moved hb hstatus htype hk⟩

/-! ## Clean-up -/

variable {battery : Option Battery}

theorem releaseReserved_ok (h : releaseReserved now rental battery s = (.ok u, t))
    (hb : ∀ b ∈ battery, b ∈ s.working.batteries) :
    t.working.rentals = s.working.rentals ∧
      ∀ b ∈ s.working.batteries, (∀ x ∈ battery, b.id ≠ x.id) → b ∈ t.working.batteries := by
  rcases battery with _ | battery
  · obtain ⟨-, rfl⟩ := pure_ok.mp h
    exact ⟨rfl, fun b hb _ => hb⟩
  · unfold releaseReserved at h
    dsimp only at h
    split_ifs at h
    · rw [bind_ok] at h
      obtain ⟨_, _, htrans, h⟩ := h
      obtain ⟨-, rfl⟩ := pure_ok.mp h
      obtain ⟨hrentals, -, hmoved⟩ := transition_ok htrans (hb battery rfl) rfl rfl rfl
      exact ⟨hrentals, fun b hmem hne => (hmoved.others b (hne battery rfl)).mpr hmem⟩
    · obtain ⟨-, rfl⟩ := pure_ok.mp h
      exact ⟨rfl, fun b hb _ => hb⟩

theorem cancelStale_ok (h : cancelStale now rental s = (.ok u, t)) :
    t.working.rentals =
        s.working.rentals.set { rental with status := .cancelled, endTime := some now } ∧
      ∀ b ∈ s.working.batteries, b.id ≠ rental.batteryId → b ∈ t.working.batteries := by
  simp only [cancelStale, saveRental, addRentalEvent, bind_ok, update_ok, query_ok] at h
  obtain ⟨_, _, rfl, _, _, rfl, _, _, ⟨-, rfl, rfl⟩, h⟩ := h
  obtain ⟨hrentals, hbatteries⟩ := releaseReserved_ok h fun b hb => (Table.get?_eq_some.mp hb).1
  refine ⟨hrentals, fun b hb hne => hbatteries b hb fun x hx => ?_⟩
  rw [show x.id = rental.batteryId from (Table.get?_eq_some.mp hx).2]
  exact hne

theorem releaseReserved_promoCodes (h : releaseReserved now rental battery s = (.ok u, t)) :
    t.working.promoCodes = s.working.promoCodes := by
  rcases battery with _ | battery
  · obtain ⟨-, rfl⟩ := pure_ok.mp h
    rfl
  · unfold releaseReserved at h
    dsimp only at h
    split_ifs at h
    · rw [bind_ok] at h
      obtain ⟨_, _, htrans, h⟩ := h
      obtain ⟨-, rfl⟩ := pure_ok.mp h
      obtain ⟨-, -, a, htransitioned⟩ := applyBatteryTransition_ok htrans
      have hrest := congrArg Db.promoCodes htransitioned.rest
      exact hrest
    · obtain ⟨-, rfl⟩ := pure_ok.mp h
      rfl

theorem cancelStale_promoCodes (h : cancelStale now rental s = (.ok u, t)) :
    t.working.promoCodes = s.working.promoCodes := by
  simp only [cancelStale, saveRental, addRentalEvent, bind_ok, update_ok, query_ok] at h
  obtain ⟨_, _, rfl, _, _, rfl, _, _, ⟨-, rfl, rfl⟩, h⟩ := h
  have hrelease := releaseReserved_promoCodes h
  exact hrelease

theorem tentative_cancelStale (now : ℕ) (rental : Rental) : Tentative (cancelStale now rental) := by
  refine (tentative_update _).bind fun _ => (tentative_update _).bind fun _ => ?_
  refine readOnly_query.tentative.bind fun db => ?_
  rcases db.batteries.get? rental.batteryId with _ | battery
  · exact (readOnly_pure ()).tentative
  · unfold releaseReserved
    dsimp only
    split_ifs
    · exact (tentative_applyBatteryTransition _ _ _).bind fun _ => (readOnly_pure ()).tentative
    · exact (readOnly_pure ()).tentative

/-- **The loop of the clean-up**: what cancelling one pending rental of the store keeps, the
clean-up keeps. -/
theorem cancelStales_ok {now n : ℕ} {userId : Option ℕ}
    (hI : ∀ r s t u, r ∈ s.working.rentals → r.status = .pendingPayment →
      cancelStale now r s = (.ok u, t) → I s.working → I t.working)
    (h : cancelStales now userId s = (.ok n, t)) (hs : I s.working) : I t.working := by
  have hloop : ∀ (stale : List Rental) (s : Session Db) (u : Unit),
      stale.forM (cancelStale now) s = (.ok u, t) → I s.working → (stale.map Rental.id).Nodup →
      (∀ r ∈ stale, r ∈ s.working.rentals ∧ r.status = .pendingPayment) → I t.working := by
    intro stale
    induction stale with
    | nil =>
      intro s u h hs _ _
      obtain ⟨-, rfl⟩ := pure_ok.mp h
      exact hs
    | cons r stale ih =>
      intro s u h hs hnodup hstale
      obtain ⟨_, s₁, hcancel, hrest⟩ := bind_ok.mp h
      obtain ⟨hr, hpending⟩ := hstale r List.mem_cons_self
      rw [List.map_cons, List.nodup_cons] at hnodup
      refine ih s₁ u hrest (hI r s s₁ _ hr hpending hcancel hs) hnodup.2 fun x hx => ?_
      obtain ⟨hmem, hxpending⟩ := hstale x (List.mem_cons_of_mem _ hx)
      rw [(cancelStale_ok hcancel).1]
      refine ⟨Table.mem_set.mpr (.inl ⟨hmem, fun hid => hnodup.1 ?_⟩), hxpending⟩
      exact List.mem_map.mpr ⟨x, hx, hid⟩
  simp only [cancelStales, bind_ok, query_ok, pure_ok] at h
  obtain ⟨_, _, ⟨-, rfl, rfl⟩, _, _, hrun, -, rfl⟩ := h
  refine hloop _ s _ hrun hs ?_ fun r hr => ?_
  · exact s.working.rentals.nodup.sublist (List.filter_sublist.map _)
  · obtain ⟨hmem, hp⟩ := Table.mem_filter.mp hr
    exact ⟨hmem, (of_decide_eq_true hp).1⟩

theorem tentative_cancelStales (now : ℕ) (userId : Option ℕ) :
    Tentative (cancelStales now userId) := by
  have hloop : ∀ stale : List Rental, Tentative (stale.forM (cancelStale now)) := by
    intro stale
    induction stale with
    | nil => exact (readOnly_pure ()).tentative
    | cons r stale ih => exact (tentative_cancelStale now r).bind fun _ => ih
  refine readOnly_query.tentative.bind fun db => (hloop _).bind fun _ => ?_
  exact (readOnly_pure _).tentative

theorem keeps_cleanup (now : ℕ)
    (hI : ∀ r s t u, r ∈ s.working.rentals → r.status = .pendingPayment →
      cancelStale now r s = (.ok u, t) → I s.working → I t.working) (userId : Option ℕ) :
    Keeps I (cleanupStalePendingRentals now userId) := by
  refine Keeps.bind ?_ fun n => ?_
  · exact (tentative_cancelStales now userId).keeps fun _ _ _ h hs => cancelStales_ok hI h hs
  · exact (keeps_unlessSkipped _ keeps_safeCommit).bind fun _ => (readOnly_pure n).keeps

/-! ## Initiation -/

theorem readOnly_calculatePrice (now batteryId : ℕ) (durationDays : ℤ) (promoCode : Option String) :
    ReadOnly (calculatePrice now batteryId durationDays promoCode) := by
  refine (readOnly_ensure _ _).bind fun _ => readOnly_query.bind fun db => ?_
  refine (readOnly_demand _ _).bind fun battery => ?_
  refine ReadOnly.bind ?_ fun promo => readOnly_pure _
  unfold promoOf
  split
  · exact readOnly_pure _
  · refine (readOnly_ensure _ _).bind fun _ => readOnly_query.bind fun db => ?_
    refine (readOnly_demand _ _).bind fun promo => ?_
    refine ReadOnly.bind ?_ fun _ => (readOnly_lift _).bind fun _ => readOnly_pure _
    refine (readOnly_ensure _ _).bind fun _ => (readOnly_ensure _ _).bind fun _ => ?_
    refine (readOnly_ensure _ _).bind fun _ => (readOnly_ensure _ _).bind fun _ => ?_
    exact (readOnly_ensure _ _).bind fun _ => readOnly_ensure _ _

/-- A new pending rental, and its battery reserved at the start station. -/
structure Reserved (rentalIn : RentalCreate) (rental : ℕ → Rental) (db db' : Db) : Prop where
  free : ∀ r ∈ db.rentals, isLive r → r.batteryId ≠ rentalIn.batteryId
  added : ∃ hkey, db'.rentals = db.rentals.add rental hkey
  status : ∀ k, (rental k).status = .pendingPayment
  unended : ∀ k, (rental k).endTime = none
  battery : ∀ k, (rental k).batteryId = rentalIn.batteryId
  station : ∀ k, (rental k).startStationId = rentalIn.startStationId
  moved : Moved db.batteries db'.batteries rentalIn.batteryId .reserved .station
    (some rentalIn.startStationId)

variable {r : Rental}

theorem reserveRental_ok {now userId : ℕ} (h : reserveRental now userId rentalIn s = (.ok r, t)) :
    ∃ rental, Reserved rentalIn rental s.working t.working := by
  rw [reserveRental, bind_ok] at h
  obtain ⟨battery, s₁, hbattery, h⟩ := h
  obtain ⟨rfl, hmem, hid, hfree⟩ := rentableBattery_ok hbattery
  rw [bind_ok] at h
  obtain ⟨price, s₂, hprice, h⟩ := h
  obtain rfl := (readOnly_calculatePrice _ _ _ _).eq hprice
  rw [bind_ok] at h
  obtain ⟨_, s₃, hpromo, h⟩ := h
  obtain ⟨hrentals₃, hbatteries₃⟩ := reservePromo_ok hpromo
  rw [bind_ok] at h
  obtain ⟨_, s₄, hend, h⟩ := h
  obtain ⟨-, rfl⟩ := lift_ok.mp hend
  rw [bind_ok] at h
  obtain ⟨k, s₅, hadd, h⟩ := h
  obtain ⟨rfl, hrentals₄, hbatteries₄⟩ := addRental_ok hadd
  rw [bind_ok] at h
  obtain ⟨_, s₆, htrans, h⟩ := h
  obtain ⟨-, rfl⟩ := pure_ok.mp h
  rw [hbatteries₃] at hbatteries₄
  rw [← hbatteries₄] at hmem
  obtain ⟨hrentals₆, -, hmoved⟩ := transition_ok htrans hmem rfl rfl rfl
  rw [hbatteries₄, hid] at hmoved
  rw [hrentals₄, hrentals₃] at hrentals₆
  exact ⟨_, hfree, ⟨_, hrentals₆⟩, fun _ => rfl, fun _ => rfl, fun _ => rfl, fun _ => rfl, hmoved⟩

theorem tentative_reserveRental (now userId : ℕ) (rentalIn : RentalCreate) :
    Tentative (reserveRental now userId rentalIn) := by
  refine (readOnly_rentableBattery _ _).tentative.bind fun battery => ?_
  refine (readOnly_calculatePrice _ _ _ _).tentative.bind fun price => ?_
  refine (tentative_reservePromo _).bind fun _ => (readOnly_lift _).tentative.bind fun _ => ?_
  refine Tentative.bind ?_ fun k => ?_
  · refine readOnly_look.tentative.bind fun _ => (tentative_update _).bind fun _ => ?_
    exact readOnly_flush.tentative.bind fun _ => (readOnly_pure _).tentative
  · exact (tentative_applyBatteryTransition _ _ _).bind fun _ => (readOnly_pure _).tentative

theorem keeps_initiate {now userId : ℕ}
    (hcleanup : Keeps I (cleanupStalePendingRentals now (some userId)))
    (hI : ∀ rental (s t : Session Db), Reserved rentalIn rental s.working t.working →
      I s.working → I t.working) : Keeps I (initiateRental now userId rentalIn) := by
  refine hcleanup.bind fun _ => Keeps.bind ?_ fun r => ?_
  · refine (tentative_reserveRental _ _ _).keeps fun s _ t h hs => ?_
    obtain ⟨rental, hreserved⟩ := reserveRental_ok h
    exact hI rental s t hreserved hs
  · exact keeps_safeCommit.bind fun _ => (readOnly_pure r).keeps

/-! ## Confirmation -/

/-- A pending rental has become active on a verified payment, its battery deployed at the customer.
-/
structure Activated (side : PaymentSide) (proof : PaymentProof) (rental : Rental) (db db' : Db) :
    Prop where
  mem : rental ∈ db.rentals
  pending : rental.status = .pendingPayment
  signed : side.signatureOk = true
  payment : ∃ payment, side.fetchPayment = some payment ∧ Covers rental proof payment
  columns : side.hasReferenceColumns = true
  rentals : db'.rentals = db.rentals.set { rental with status := .active }
  moved : Moved db.batteries db'.batteries rental.batteryId .deployed .customer none

variable {reference : Option String}

theorem activateRental_ok {rental r : Rental}
    (h : activateRental now side rental userId proof reference s = (.ok r, t))
    (hr : rental ∈ s.working.rentals) : Activated side proof rental s.working t.working := by
  rw [activateRental, bind_ok] at h
  obtain ⟨_, s₁, hstate, h⟩ := h
  obtain ⟨hpending, rfl⟩ := ensure_ok.mp hstate
  rw [bind_ok] at h
  obtain ⟨_, s₂, hsignature, h⟩ := h
  obtain ⟨hsigned, rfl⟩ := ensure_ok.mp hsignature
  rw [bind_ok] at h
  obtain ⟨payment, s₃, hpayment, h⟩ := h
  obtain ⟨hfetched, rfl⟩ := demand_ok.mp hpayment
  rw [bind_ok] at h
  obtain ⟨amounts, s₄, hcheck, h⟩ := h
  obtain ⟨rfl, hcovers⟩ := checkPayment_ok hcheck
  rw [bind_ok] at h
  obtain ⟨_, s₅, hsettle, h⟩ := h
  obtain ⟨hcolumns, hrentals, hbatteries⟩ := settlePayment_ok hsettle
  simp only [saveRental, addRentalEvent, bind_ok, update_ok, query_ok, demand_ok, pure_ok] at h
  obtain ⟨_, _, rfl, _, _, rfl, _, _, ⟨-, rfl, rfl⟩, battery, _, ⟨hbattery, rfl⟩, h⟩ := h
  obtain ⟨_, _, htrans, -, rfl⟩ := h
  obtain ⟨hmem, hid⟩ := Table.get?_eq_some.mp hbattery
  obtain ⟨hrentals', -, hmoved⟩ := transition_ok htrans hmem rfl rfl rfl
  have hbid : battery.id = rental.batteryId := hid
  have hrentals'' : _ = s₅.working.rentals.set { rental with status := .active } := hrentals'
  rw [hrentals] at hrentals''
  rw [hbid] at hmoved
  refine ⟨hr, hpending, hsigned, ⟨payment, hfetched, hcovers⟩, hcolumns, hrentals'', ?_⟩
  rw [← hbatteries]
  exact hmoved

theorem tentative_activateRental (now : ℕ) (side : PaymentSide) (rental : Rental) (userId : ℕ)
    (proof : PaymentProof) (reference : Option String) :
    Tentative (activateRental now side rental userId proof reference) := by
  refine (readOnly_ensure _ _).tentative.bind fun _ =>
    (readOnly_ensure _ _).tentative.bind fun _ => ?_
  refine (readOnly_demand _ _).tentative.bind fun payment => ?_
  refine (readOnly_checkPayment _ _ _).tentative.bind fun amounts => ?_
  refine (tentative_settlePayment _ _ _ _ _ _).bind fun _ => (tentative_update _).bind fun _ => ?_
  refine (tentative_update _).bind fun _ => readOnly_query.tentative.bind fun _ => ?_
  refine (readOnly_demand _ _).tentative.bind fun _ => ?_
  exact (tentative_applyBatteryTransition _ _ _).bind fun _ => (readOnly_pure _).tentative

/-- A confirmation activates the rental, or finds it active and leaves the store as it is. -/
theorem confirmOrReplay_ok {now rentalId userId : ℕ} {r : Rental × Bool}
    (h : confirmOrReplay now side rentalId userId proof reference s = (.ok r, t)) :
    (t = s ∧ side.hasReferenceColumns = true) ∨
      ∃ rental, rental.id = rentalId ∧ Activated side proof rental s.working t.working := by
  rw [confirmOrReplay, bind_ok] at h
  obtain ⟨_, s₁, hproof, h⟩ := h
  obtain ⟨-, rfl⟩ := ensure_ok.mp hproof
  rw [bind_ok] at h
  obtain ⟨db, s₂, hdb, h⟩ := h
  obtain ⟨-, rfl, rfl⟩ := query_ok.mp hdb
  rw [bind_ok] at h
  obtain ⟨rental, s₃, hdemand, h⟩ := h
  obtain ⟨hrental, rfl⟩ := demand_ok.mp hdemand
  obtain ⟨hmem, hid⟩ := Table.get?_eq_some.mp (Option.filter_eq_some_iff.mp hrental).1
  by_cases hactive : rental.status = .active
  · rw [if_pos hactive, bind_ok] at h
    obtain ⟨_, s₄, hreplay, h⟩ := h
    obtain rfl := (readOnly_confirmedBefore _ _ _).eq hreplay
    obtain ⟨-, rfl⟩ := pure_ok.mp h
    rw [confirmedBefore, bind_ok] at hreplay
    obtain ⟨_, _, hcolumns, -⟩ := hreplay
    exact .inl ⟨rfl, (ensure_ok.mp hcolumns).1⟩
  · rw [if_neg hactive, bind_ok] at h
    obtain ⟨_, s₄, hactivate, h⟩ := h
    obtain ⟨-, rfl⟩ := pure_ok.mp h
    exact .inr ⟨rental, hid, activateRental_ok hactivate hmem⟩

theorem tentative_confirmOrReplay (now rentalId userId : ℕ) (side : PaymentSide)
    (proof : PaymentProof) (reference : Option String) :
    Tentative (confirmOrReplay now side rentalId userId proof reference) := by
  refine (readOnly_ensure _ _).tentative.bind fun _ => readOnly_query.tentative.bind fun _ => ?_
  refine (readOnly_demand _ _).tentative.bind fun rental => ?_
  split_ifs
  · exact (readOnly_confirmedBefore _ _ _).tentative.bind fun _ => (readOnly_pure _).tentative
  · exact (tentative_activateRental _ _ _ _ _ _).bind fun _ => (readOnly_pure _).tentative

theorem keeps_confirm {rentalId : ℕ} (hI : ∀ rental (s t : Session Db), rental.id = rentalId →
      Activated side proof rental s.working t.working → I s.working → I t.working)
    (now userId : ℕ) (reference : Option String) :
    Keeps I (confirmRentalVerified now side rentalId userId proof reference) := by
  refine Keeps.bind ?_ fun r => ?_
  · refine (tentative_confirmOrReplay _ _ _ _ _ _).keeps fun s _ t h hs => ?_
    rcases confirmOrReplay_ok h with ⟨rfl, -⟩ | ⟨rental, hid, hactivated⟩
    · exact hs
    · exact hI rental s t hid hactivated hs
  · exact (keeps_unlessSkipped _ keeps_safeCommit).bind fun _ => (readOnly_pure _).keeps

/-- **As the source stands, a confirmation raises** and leaves the store as it is. -/
theorem confirm_raises (now rentalId userId : ℕ) (signatureOk : Bool) (proof : PaymentProof)
    (reference : Option String) (db : Db) : ∃ e,
      (confirmRentalVerified now (.asItStands signatureOk) rentalId userId proof reference).call
        db = (.error e, db) := by
  rcases h : confirmOrReplay now (.asItStands signatureOk) rentalId userId proof reference
    (.fresh db) with ⟨e | r, t⟩
  · have hcommitted : t.committed = db := (tentative_confirmOrReplay _ _ _ _ _ _).eq h
    refine ⟨e, ?_⟩
    rw [confirmRentalVerified, call_eq (bind_of_error h), hcommitted]
  · rcases confirmOrReplay_ok h with ⟨-, hcolumns⟩ | ⟨rental, -, hactivated⟩
    · cases hcolumns
    · cases hactivated.columns

/-! ## Return -/

/-- An active rental has been completed at a station, its battery available there. -/
structure Returned (now stationId : ℕ) (rental : Rental) (db db' : Db) : Prop where
  mem : rental ∈ db.rentals
  active : rental.status = .active
  rentals : db'.rentals = db.rentals.set
    { rental with status := .completed, endStationId := some stationId, endTime := some now }
  moved : Moved db.batteries db'.batteries rental.batteryId .available .station (some stationId)

theorem completeRental_ok {now rentalId stationId : ℕ}
    (h : completeRental now rentalId stationId s = (.ok r, t)) :
    ∃ rental, Returned now stationId rental s.working t.working := by
  rw [completeRental, bind_ok] at h
  obtain ⟨db, s₁, hdb, h⟩ := h
  obtain ⟨-, rfl, rfl⟩ := query_ok.mp hdb
  rw [bind_ok] at h
  obtain ⟨rental, s₂, hdemand, h⟩ := h
  obtain ⟨hrental, rfl⟩ := demand_ok.mp hdemand
  obtain ⟨hget, hactive⟩ := Option.filter_eq_some_iff.mp hrental
  obtain ⟨hr, -⟩ := Table.get?_eq_some.mp hget
  simp only [saveRental, addRentalEvent, bind_ok, update_ok, query_ok, demand_ok, pure_ok] at h
  obtain ⟨_, _, rfl, _, _, ⟨-, rfl, rfl⟩, battery, _, ⟨hbattery, rfl⟩, _, s₃, htrans, h⟩ := h
  obtain ⟨_, _, rfl, -, rfl⟩ := h
  obtain ⟨hmem, hid⟩ := Table.get?_eq_some.mp hbattery
  obtain ⟨hrentals, -, hmoved⟩ := transition_ok htrans hmem rfl rfl rfl
  have hbid : battery.id = rental.batteryId := hid
  rw [hbid] at hmoved
  exact ⟨rental, hr, of_decide_eq_true hactive, hrentals, hmoved⟩

theorem tentative_completeRental (now rentalId stationId : ℕ) :
    Tentative (completeRental now rentalId stationId) := by
  refine readOnly_query.tentative.bind fun _ => (readOnly_demand _ _).tentative.bind fun _ => ?_
  refine (tentative_update _).bind fun _ => readOnly_query.tentative.bind fun _ => ?_
  refine (readOnly_demand _ _).tentative.bind fun _ => ?_
  refine (tentative_applyBatteryTransition _ _ _).bind fun _ =>
    (tentative_update _).bind fun _ => ?_
  exact (readOnly_pure _).tentative

theorem keeps_return {now stationId : ℕ}
    (hI : ∀ rental (s t : Session Db), Returned now stationId rental s.working t.working →
      I s.working → I t.working) (rentalId : ℕ) :
        Keeps I (returnBattery now rentalId stationId) := by
  refine Keeps.bind ?_ fun r => keeps_safeCommit.bind fun _ => (readOnly_pure r).keeps
  refine (tentative_completeRental _ _ _).keeps fun s _ t h hs => ?_
  obtain ⟨rental, hreturned⟩ := completeRental_ok h
  exact hI rental s t hreturned hs

/-! ## Swap -/

/-- An active rental has been pointed to a battery that was available; its old battery is available
at the station and the new one deployed at the customer. -/
structure Swapped (stationId : ℕ) (rental : Rental) (old new : Battery) (db db' : Db) : Prop where
  mem : rental ∈ db.rentals
  active : rental.status = .active
  oldMem : old ∈ db.batteries
  oldId : old.id = rental.batteryId
  newMem : new ∈ db.batteries
  available : new.status = .available
  rentals : db'.rentals = db.rentals.set { rental with batteryId := new.id }
  moved : new.id ≠ old.id → ∃ batteries,
    Moved db.batteries batteries old.id .available .station (some stationId) ∧
      Moved batteries db'.batteries new.id .deployed .customer none

def swapReturn (rentalId stationId : ℕ) : Transition :=
  { toStatus := some .available
    toLocationType := some .station
    toLocationId := some (some stationId)
    eventType := "swap_returned"
    eventDescription := s!"Swap return for rental #{rentalId} at station #{stationId}" }

/-- The transition that hands out the new one. -/
def swapDispense (rentalId stationId : ℕ) : Transition :=
  { toStatus := some .deployed
    toLocationType := some .customer
    toLocationId := some none
    eventType := "swap_dispensed"
    eventDescription := s!"Swap dispense for rental #{rentalId} at station #{stationId}" }

/-- The new battery of a swap as its transition finds it: the one row of a battery that is swapped
for itself has been returned before. -/
def dispensed (now rentalId stationId : ℕ) (old new : Battery) : Battery :=
  if new.id = old.id then outcome now (swapReturn rentalId stationId) old else new

/-- A swap that returns: what it has checked in `db`, its two transitions by way of `db₁` and `db₂`,
and what it has written after them. -/
structure SwapSteps (now rentalId newBatteryId stationId : ℕ) (rental : Rental) (old new : Battery)
    (db db₁ db₂ db' : Db) : Prop where
  mem : rental ∈ db.rentals
  id : rental.id = rentalId
  active : rental.status = .active
  oldMem : old ∈ db.batteries
  oldId : old.id = rental.batteryId
  newMem : new ∈ db.batteries
  newId : new.id = newBatteryId
  available : new.status = .available
  newType : new.locationType = some .station
  newStation : new.locationId = some stationId
  returned : ∃ a, Transitioned now (swapReturn rentalId stationId) old a db db₁
  dispensed : ∃ a, Transitioned now (swapDispense rentalId stationId)
    (dispensed now rentalId stationId old new) a db₁ db₂
  written : ∃ description, db' = { db₂ with
    rentals := db₂.rentals.set { rental with batteryId := newBatteryId }
    rentalEvents := db₂.rentalEvents.add fun id =>
      { id, rentalId, eventType := "swap_complete", stationId := some stationId,
        batteryId := some newBatteryId, description } }

theorem swapBatteries_steps {now rentalId newBatteryId stationId : ℕ}
    (h : swapBatteries now rentalId newBatteryId stationId s = (.ok u, t)) :
    ∃ rental old new db₁ db₂, SwapSteps now rentalId newBatteryId stationId rental old new
      s.working db₁ db₂ t.working := by
  rw [swapBatteries, bind_ok] at h
  obtain ⟨db, s₁, hdb, h⟩ := h
  obtain ⟨-, rfl, rfl⟩ := query_ok.mp hdb
  rw [bind_ok] at h
  obtain ⟨rental, s₂, hdemand, h⟩ := h
  obtain ⟨hrental, rfl⟩ := demand_ok.mp hdemand
  obtain ⟨hget, hactive⟩ := Option.filter_eq_some_iff.mp hrental
  obtain ⟨hr, hrid⟩ := Table.get?_eq_some.mp hget
  rw [bind_ok] at h
  obtain ⟨oldBattery, s₃, hdemand', h⟩ := h
  obtain ⟨hold, rfl⟩ := demand_ok.mp hdemand'
  obtain ⟨holdmem, holdid⟩ := Table.get?_eq_some.mp hold
  rw [bind_ok] at h
  obtain ⟨newBattery, s₄, hdemand'', h⟩ := h
  obtain ⟨hnew, rfl⟩ := demand_ok.mp hdemand''
  obtain ⟨hnewget, havailable⟩ := Option.filter_eq_some_iff.mp hnew
  obtain ⟨hnewmem, hnewid⟩ := Table.get?_eq_some.mp hnewget
  rw [bind_ok] at h
  obtain ⟨_, s₅, hplace, h⟩ := h
  obtain ⟨⟨hstation, htype⟩, rfl⟩ := ensure_ok.mp hplace
  rw [bind_ok] at h
  obtain ⟨returned, s₆, htrans, h⟩ := h
  obtain ⟨rfl, -, hreturned⟩ := applyBatteryTransition_ok htrans
  rw [bind_ok] at h
  obtain ⟨_, s₇, htrans', h⟩ := h
  rw [outcome_id] at htrans'
  obtain ⟨rfl, -, hdispensed⟩ := applyBatteryTransition_ok htrans'
  simp only [saveRental, addRentalEvent, bind_ok, update_ok] at h
  obtain ⟨_, _, rfl, rfl⟩ := h
  exact ⟨rental, oldBattery, newBattery, s₆.working, s₇.working, hr, hrid,
    of_decide_eq_true hactive, holdmem, holdid, hnewmem, hnewid, of_decide_eq_true havailable,
    htype, hstation, hreturned, hdispensed, _, rfl⟩

theorem swapBatteries_ok {now rentalId newBatteryId stationId : ℕ}
    (h : swapBatteries now rentalId newBatteryId stationId s = (.ok u, t)) :
    ∃ rental old new, Swapped stationId rental old new s.working t.working := by
  obtain ⟨rental, old, new, db₁, db₂, hsteps⟩ := swapBatteries_steps h
  obtain ⟨a, hreturned⟩ := hsteps.returned
  obtain ⟨a', hdispensed⟩ := hsteps.dispensed
  obtain ⟨description, hwritten⟩ := hsteps.written
  have hmoved := hreturned.moved hsteps.oldMem rfl rfl rfl
  refine ⟨rental, old, new, hsteps.mem, hsteps.active, hsteps.oldMem, hsteps.oldId, hsteps.newMem,
    hsteps.available, ?_, fun hne => ?_⟩
  · rw [hwritten, hsteps.newId, hdispensed.rest, hreturned.rest]
  · rw [dispensed, if_neg hne] at hdispensed
    have hnewmem := (hmoved.others new hne).mpr hsteps.newMem
    have hmoved' := hdispensed.moved hnewmem rfl rfl rfl
    rw [hwritten]
    exact ⟨db₁.batteries, hmoved, hmoved'⟩

theorem tentative_swapBatteries (now rentalId newBatteryId stationId : ℕ) :
    Tentative (swapBatteries now rentalId newBatteryId stationId) := by
  refine readOnly_query.tentative.bind fun _ => (readOnly_demand _ _).tentative.bind fun _ => ?_
  refine (readOnly_demand _ _).tentative.bind fun _ =>
    (readOnly_demand _ _).tentative.bind fun _ => ?_
  refine (readOnly_ensure _ _).tentative.bind fun _ => ?_
  refine (tentative_applyBatteryTransition _ _ _).bind fun _ => ?_
  refine (tentative_applyBatteryTransition _ _ _).bind fun _ => ?_
  exact (tentative_update _).bind fun _ => tentative_update _

theorem keeps_swap {stationId : ℕ} (hI : ∀ rental old new (s t : Session Db),
      Swapped stationId rental old new s.working t.working →
      I s.working → I t.working) (now rentalId newBatteryId : ℕ) (autoCommit : Bool) :
    Keeps I (executeSwap now rentalId newBatteryId stationId autoCommit) := by
  have hswap : Keeps I (swapBatteries now rentalId newBatteryId stationId) := by
    refine (tentative_swapBatteries _ _ _ _).keeps fun s _ t h hs => ?_
    obtain ⟨rental, old, new, hswapped⟩ := swapBatteries_ok h
    exact hI rental old new s t hswapped hs
  unfold executeSwap
  split_ifs
  · refine Keeps.handle_rollback ?_ fun _ => (readOnly_pure false).keeps
    exact hswap.bind fun _ => keeps_safeCommit.bind fun _ => (readOnly_pure true).keeps
  · exact hswap.bind fun _ => readOnly_flush.keeps.bind fun _ => (readOnly_pure true).keeps

end

end WezuBackend.Rental.Effects
