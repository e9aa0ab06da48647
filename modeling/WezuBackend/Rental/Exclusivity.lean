import WezuBackend.Lib.Holders
import WezuBackend.Lib.Runs
import WezuBackend.Rental.Effects

/-!
# One rental a battery

A rental that is pending or active holds its battery.  `InStep` says that no battery is held twice
and that each held battery is where the status of its rental says: reserved at the start station
while the payment is pending, deployed at the customer while the rental is active.

Every operation rewrites one rental and moves only batteries that this rental holds or that nobody
holds, and such a step keeps `InStep` (`InStep.step`).  So every run does
(`batteries_exclusive_over_runs`).
-/

namespace WezuBackend.Rental.Exclusivity

open Lib.Tables Lib.Atomicity Lib.Atomicity.Tx Lib.Holders Lib.Runs Core.Letters
open Fleet.Model Fleet.Consistency Fleet.Transitions Rental.Service Rental.Effects

def refers (rentals : Table Rental) (rentalId batteryId : ℕ) : Prop :=
  ∃ r ∈ rentals, r.id = rentalId ∧ isLive r ∧ r.batteryId = batteryId

/-- The rental's battery is where the rental's status says. -/
def Placed (batteries : Table Battery) (rental : Rental) : Prop :=
  ∃ b ∈ batteries, b.id = rental.batteryId ∧
    (rental.status = .pendingPayment → b.status = .reserved ∧ b.locationType = some .station ∧
      b.locationId = some rental.startStationId) ∧
    (rental.status = .active → b.status = .deployed ∧ b.locationType = some .customer)

structure InStep (rentals : Table Rental) (batteries : Table Battery) : Prop where
  exclusive : Exclusive (refers rentals)
  placed : ∀ r ∈ rentals, isLive r → Placed batteries r

def RentalInvariant (db : Db) : Prop := InStep db.rentals db.batteries

variable {rentals rentals' : Table Rental} {batteries batteries' : Table Battery} {db db' : Db}

theorem refers_of_mem {r : Rental} (hr : r ∈ rentals) (hlive : isLive r) :
    refers rentals r.id r.batteryId := ⟨r, hr, rfl, hlive, rfl⟩

/-- **One step**: only the rental `k` is rewritten, and only batteries that no other rental refers
to are moved. -/
theorem InStep.step (h : InStep rentals batteries) (k : ℕ)
    (hrentals : ∀ r ∈ rentals', r.id ≠ k → r ∈ rentals)
    (hbatteries : ∀ b ∈ batteries, b ∉ batteries' → OnlyFor (refers rentals) k b.id)
    (hk : ∀ r ∈ rentals', r.id = k → isLive r →
      Placed batteries' r ∧ OnlyFor (refers rentals) k r.batteryId) :
    InStep rentals' batteries' := by
  refine ⟨h.exclusive.gain k ?_ ?_, fun r hr hlive => ?_⟩
  · rintro k' b ⟨r, hr, rfl, hlive, rfl⟩ hne
    exact refers_of_mem (hrentals r hr hne) hlive
  · rintro b ⟨r, hr, hid, hlive, rfl⟩
    exact (hk r hr hid hlive).2
  · by_cases hid : r.id = k
    · exact (hk r hr hid hlive).1
    · have hr₀ := hrentals r hr hid
      obtain ⟨b, hb, hbid, hplace⟩ := h.placed r hr₀ hlive
      by_cases hmem : b ∈ batteries'
      · exact ⟨b, hmem, hbid, hplace⟩
      · have honly := hbatteries b hb hmem r.id
        rw [hbid] at honly
        exact absurd (honly (refers_of_mem hr₀ hlive)) hid

/-- A live rental is rewritten, and at most its own battery is moved. -/
theorem InStep.rewrite (h : InStep rentals batteries) {r r' : Rental} (hr : r ∈ rentals)
    (hlive : isLive r) (hid : r'.id = r.id) (hbattery : r'.batteryId = r.batteryId)
    (hbatteries : ∀ b ∈ batteries, b.id ≠ r.batteryId → b ∈ batteries')
    (hplaced : isLive r' → Placed batteries' r') : InStep (rentals.set r') batteries' := by
  have honly : OnlyFor (refers rentals) r.id r.batteryId :=
    h.exclusive.onlyFor (refers_of_mem hr hlive)
  refine h.step r.id (fun x hx hne => ?_) (fun b hb hmem => ?_) (fun x hx hxid hxlive => ?_)
  · rcases Table.mem_set.mp hx with ⟨hx, -⟩ | ⟨rfl, -⟩
    · exact hx
    · exact absurd hid hne
  · have hself : b.id = r.batteryId := by
      by_contra hne
      exact hmem (hbatteries b hb hne)
    rw [hself]
    exact honly
  · rcases Table.mem_set.mp hx with ⟨-, hne⟩ | ⟨rfl, -⟩
    · exact absurd (hxid.trans hid.symm) hne
    · rw [hbattery]
      exact ⟨hplaced hxlive, honly⟩

theorem InStep.not_refers (h : InStep rentals batteries) {b : Battery} (hb : b ∈ batteries)
    (hstatus : b.status = .available) (k : ℕ) : ¬ refers rentals k b.id := by
  rintro ⟨r, hr, -, hlive, hid⟩
  obtain ⟨x, hx, hxid, hpending, hactive⟩ := h.placed r hr hlive
  have hsame : x = b := Table.eq_of_key hx hb (hxid.trans hid)
  rw [hsame, hstatus] at hpending hactive
  rcases hlive with hlive | hlive
  · exact absurd (hactive hlive).1 (by decide)
  · exact absurd (hpending hlive).1 (by decide)

/-- A new rental of a battery that nobody holds, which is moved to the rental. -/
theorem InStep.reserve (h : InStep db.rentals db.batteries) {rentalIn : RentalCreate}
    {rental : ℕ → Rental} (hr : Reserved rentalIn rental db db') :
    InStep db'.rentals db'.batteries := by
  obtain ⟨hkey, hadded⟩ := hr.added
  have hfree : ∀ k, OnlyFor (refers db.rentals) k rentalIn.batteryId := by
    rintro k k' ⟨r, hmem, -, hlive, hid⟩
    exact absurd hid (hr.free r hmem hlive)
  rw [hadded]
  have hmem : ∀ r ∈ db.rentals.add rental hkey, r ∈ db.rentals ∨ r = rental db.rentals.freshKey :=
    fun r hr => Table.mem_add.mp hr
  refine h.step db.rentals.freshKey (fun r hr hne => ?_) (fun b hb hgone => ?_)
    fun r hr' hid _ => ?_
  · rcases hmem r hr with hr | rfl
    · exact hr
    · exact absurd (hkey _) hne
  · have hself : b.id = rentalIn.batteryId := by
      by_contra hne
      exact hgone ((hr.moved.others b hne).mpr hb)
    rw [hself]
    exact hfree _
  · rcases hmem r hr' with hr' | rfl
    · exact absurd hid (Table.key_lt_freshKey hr').ne
    · obtain ⟨b, hb, hbid, hstatus, htype, hplace⟩ := hr.moved.placed
      rw [hr.battery]
      refine ⟨⟨b, hb, hbid.trans (hr.battery _).symm, fun _ => ?_, fun hactive => ?_⟩, hfree _⟩
      · rw [hr.station]
        exact ⟨hstatus, htype, hplace⟩
      · rw [hr.status] at hactive
        cases hactive

variable {rental : Rental}

theorem InStep.activate (h : InStep db.rentals db.batteries) {side : PaymentSide}
    {proof : PaymentProof} (hr : Activated side proof rental db db') :
    InStep db'.rentals db'.batteries := by
  rw [hr.rentals]
  refine h.rewrite hr.mem (.inr hr.pending) rfl rfl (fun b hb hne => ?_) fun _ => ?_
  · exact (hr.moved.others b hne).mpr hb
  · obtain ⟨b, hb, hbid, hstatus, htype, -⟩ := hr.moved.placed
    refine ⟨b, hb, hbid, fun hpending => ?_, fun _ => ⟨hstatus, htype⟩⟩
    cases hpending

theorem InStep.return (h : InStep db.rentals db.batteries) {now stationId : ℕ}
    (hr : Returned now stationId rental db db') : InStep db'.rentals db'.batteries := by
  rw [hr.rentals]
  refine h.rewrite hr.mem (.inl hr.active) rfl rfl (fun b hb hne => ?_) ?_
  · exact (hr.moved.others b hne).mpr hb
  · rintro (hstatus | hstatus) <;> cases hstatus

theorem InStep.swap (h : InStep db.rentals db.batteries) {stationId : ℕ}
    {old new : Battery} (hr : Swapped stationId rental old new db db') :
    InStep db'.rentals db'.batteries := by
  have hfree := h.not_refers hr.newMem hr.available
  have hholds : refers db.rentals rental.id old.id := by
    rw [hr.oldId]
    exact refers_of_mem hr.mem (.inl hr.active)
  have hne : new.id ≠ old.id := fun hsame => hfree rental.id (hsame ▸ hholds)
  obtain ⟨batteries, hreturned, hdispensed⟩ := hr.moved hne
  rw [hr.rentals]
  refine h.step rental.id (fun r hmem hid => ?_) (fun b hb hgone => ?_) fun r hmem hid _ => ?_
  · rcases Table.mem_set.mp hmem with ⟨hmem, -⟩ | ⟨rfl, -⟩
    · exact hmem
    · exact absurd rfl hid
  · -- only the returned and the dispensed battery are moved
    by_cases hbold : b.id = old.id
    · rw [hbold]
      exact h.exclusive.onlyFor hholds
    · by_cases hbnew : b.id = new.id
      · rw [hbnew]
        exact fun k hk => absurd hk (hfree k)
      · have hmoved := (hreturned.others b hbold).mpr hb
        exact absurd ((hdispensed.others b hbnew).mpr hmoved) hgone
  · rcases Table.mem_set.mp hmem with ⟨-, hne'⟩ | ⟨rfl, -⟩
    · exact absurd hid hne'
    · obtain ⟨b, hb, hbid, hstatus, htype, -⟩ := hdispensed.placed
      refine ⟨⟨b, hb, hbid, fun hpending => ?_, fun _ => ⟨hstatus, htype⟩⟩, ?_⟩
      · exact absurd (hpending.symm.trans hr.active) (by decide)
      · exact fun k hk => absurd hk (hfree k)

section

variable [Casing]

theorem cancelStale_keeps {now : ℕ} (r : Rental) (s t : Session Db) (u : Unit)
    (hr : r ∈ s.working.rentals) (hpending : r.status = .pendingPayment)
    (h : cancelStale now r s = (.ok u, t)) (hinv : RentalInvariant s.working) :
    RentalInvariant t.working := by
  obtain ⟨hrentals, hbatteries⟩ := cancelStale_ok h
  unfold RentalInvariant
  rw [hrentals]
  refine InStep.rewrite hinv hr (.inr hpending) rfl rfl hbatteries ?_
  rintro (hstatus | hstatus) <;> cases hstatus

/-! ## Runs -/

/-- A call of the rental and swap services, by any user at any time. -/
inductive Call where
  | initiateRental (now userId : ℕ) (rentalIn : RentalCreate)
  | confirmRentalVerified (now : ℕ) (side : PaymentSide) (rentalId userId : ℕ)
      (proof : PaymentProof) (paymentReference : Option String)
  | cleanupStalePendingRentals (now : ℕ) (userId : Option ℕ)
  | returnBattery (now rentalId stationId : ℕ)
  /-- without `auto_commit` the caller may commit -/
  | executeSwap (now rentalId newBatteryId stationId : ℕ) (autoCommit callerCommits : Bool)

/-- The store after a call. -/
def step (db : Db) : Call → Db
  | .initiateRental now userId rentalIn => ((initiateRental now userId rentalIn).call db).2
  | .confirmRentalVerified now side rentalId userId proof reference =>
    ((confirmRentalVerified now side rentalId userId proof reference).call db).2
  | .cleanupStalePendingRentals now userId => ((cleanupStalePendingRentals now userId).call db).2
  | .returnBattery now rentalId stationId => ((returnBattery now rentalId stationId).call db).2
  | .executeSwap now rentalId newBatteryId stationId autoCommit callerCommits =>
    (Tx.call (executeSwap now rentalId newBatteryId stationId autoCommit >>= fun done =>
      unlessSkipped (autoCommit || !callerCommits) commitAll >>= fun _ => pure done) db).2

theorem step_inStep (db : Db) (c : Call) (h : RentalInvariant db) :
    RentalInvariant (step db c) := by
  cases c with
  | initiateRental now userId rentalIn =>
    exact (keeps_initiate (keeps_cleanup _ cancelStale_keeps _)
      fun _ _ _ hr hs => InStep.reserve hs hr).call h
  | confirmRentalVerified now side rentalId userId proof reference =>
    exact (keeps_confirm (fun _ _ _ _ hr hs => InStep.activate hs hr) _ _ _).call h
  | cleanupStalePendingRentals now userId => exact (keeps_cleanup _ cancelStale_keeps _).call h
  | returnBattery now rentalId stationId =>
    exact (keeps_return (fun _ _ _ hr hs => InStep.return hs hr) _).call h
  | executeSwap now rentalId newBatteryId stationId autoCommit callerCommits =>
    refine Keeps.call ?_ h
    refine Keeps.bind (keeps_swap (fun _ _ _ _ _ hr hs => InStep.swap hs hr) _ _ _ _) fun _ => ?_
    refine (keeps_unlessSkipped _ ?_).bind fun _ => (readOnly_pure _).keeps
    exact readOnly_flush.keeps.bind fun _ => keeps_commit

/-- **One rental a battery, over runs.** -/
theorem batteries_exclusive_over_runs (db : Db) (hdb : RentalInvariant db) (calls : List Call) :
    RentalInvariant (run step db calls) := run_invariant step_inStep hdb calls

end

/-! ## A rental from its reservation to its return -/

/-- One station with a battery at it. -/
def rentalStore : Db where
  batteries := ⟨[{ id := 7, serialNumber := "B7", status := .available
                   locationType := some .station, locationId := some 3 }], by decide⟩
  stations := ⟨[{ id := 3 }], by decide⟩

/-- A payment of the rental that the gateway has captured. -/
def paid : PaymentSide where
  signatureOk := true
  fetchPayment := some ⟨some "order_1", some "captured", some (.finite 0 0), none, none⟩
  hasReferenceColumns := true

def rentAndReturn : List Call :=
  [.initiateRental 100 1 { batteryId := 7, startStationId := 3 },
    .confirmRentalVerified 200 paid 1 1 ⟨"order_1", "pay_1", "sig"⟩ none,
    .returnBattery 300 1 3]

theorem batteries_exclusive_over_runs_sample :
    RentalInvariant (run step rentalStore rentAndReturn) ∧
      (run step rentalStore (rentAndReturn.take 2)).rentals.rows.map Rental.status = [.active] := by
  refine ⟨batteries_exclusive_over_runs rentalStore ⟨?_, ?_⟩ rentAndReturn, ?_⟩
  · exact exclusive_of_free fun k b ⟨r, hr, _⟩ => absurd hr (Table.not_mem_empty r)
  · exact fun r hr => absurd hr (Table.not_mem_empty r)
  · decide +kernel

end WezuBackend.Rental.Exclusivity
