import WezuBackend.Rental.Exclusivity

/-!
# The life of a rental

`confirm_rental` of `app/api/v1/rentals.py` and `terminate_rental` of `app/api/admin/rentals.py`
write the status of a rental beside the services.  `LifecycleStep` is what a step should do with
every rental's status: it becomes active only from `pending_payment`, on a payment verified to cover
the rental, and once completed or cancelled it stays.

All operations but `confirm_rental` do so, and `confirm_rental` does exactly where the rental is
active already: it checks neither the payment nor the status (`lifecycle_iff`,
`confirm_rental_revives`).
-/

namespace WezuBackend.Rental.Lifecycle

open Lib.Tables Lib.Atomicity Lib.Atomicity.Tx Lib.Runs Core.Letters Fleet.Model
open Fleet.Transitions Rental.Service Rental.Effects Rental.Exclusivity

/-! ## Endpoints -/

/-- `confirm_rental` before the commit: the column takes the text `ACTIVE` as the name of the
status, and a rental has no `payment_reference`. -/
def writeActive (rentalId userId : ℕ) : FleetTx Rental := do
  let db ← query
  let rental ← demand ((db.rentals.get? rentalId).filter fun r => r.userId = userId)
    (.http 404 "Rental not found")
  let rental := { rental with status := .active }
  saveRental rental
  return rental

def confirmRental (rentalId userId : ℕ) : FleetTx Rental := committing (writeActive rentalId userId)

/-- `terminate_rental` before the commit. -/
def writeTerminated (now rentalId : ℕ) : FleetTx Unit := do
  let db ← query
  let rental ← demand (db.rentals.get? rentalId) (.http 404 "Rental not found")
  ensure (rental.status ≠ .completed) (.http 400 "Rental already completed")
  saveRental { rental with status := .cancelled, endTime := some now }

def terminateRental (now rentalId : ℕ) : FleetTx Unit := committing (writeTerminated now rentalId)

/-- What `review_extension` does to the rental of a request that it approves; the date it reads from
the request is an argument. -/
def writeExtension (rentalId requestedEndDate : ℕ) : FleetTx Unit := do
  let db ← query
  let rental ← demand (db.rentals.get? rentalId) (.http 404 "Rental not found")
  saveRental { rental with endTime := some requestedEndDate }

def approveExtension (rentalId requestedEndDate : ℕ) : FleetTx Unit := do
  writeExtension rentalId requestedEndDate
  safeCommit

/-- The operations that write rentals. -/
inductive Operation where
  | service (call : Call)
  | confirmRental (rentalId userId : ℕ)
  | terminateRental (now rentalId : ℕ)
  | approveExtension (rentalId requestedEndDate : ℕ)

section

variable [Casing]

/-- The store after an operation. -/
def perform (db : Db) : Operation → Db
  | .service call => step db call
  | .confirmRental rentalId userId => ((confirmRental rentalId userId).call db).2
  | .terminateRental now rentalId => ((terminateRental now rentalId).call db).2
  | .approveExtension rentalId requestedEndDate =>
    ((approveExtension rentalId requestedEndDate).call db).2

end

/-! ## The lifecycle -/

def statusOf (rentals : Table Rental) (k : ℕ) : Option RentalStatus :=
  (rentals.get? k).map Rental.status

/-- The operation is a confirmation of the rental by a payment that the gateway has signed and that
covers it. -/
def VerifiedFor (db : Db) (o : Operation) (k : ℕ) : Prop :=
  ∃ now side userId proof reference,
    o = .service (.confirmRentalVerified now side k userId proof reference) ∧
    side.signatureOk = true ∧ ∃ rental ∈ db.rentals, rental.id = k ∧
      ∃ payment, side.fetchPayment = some payment ∧ Covers rental proof payment

structure LifecycleStep (db : Db) (o : Operation) (db' : Db) : Prop where
  activated : ∀ k, statusOf db'.rentals k = some .active →
    statusOf db.rentals k = some .active ∨
      statusOf db.rentals k = some .pendingPayment ∧ VerifiedFor db o k
  ended : ∀ k status, status = .completed ∨ status = .cancelled →
    statusOf db.rentals k = some status → statusOf db'.rentals k = some status

/-- A rental that ended keeps its status, and no rental becomes active. -/
def Quiet (status status' : Option RentalStatus) : Prop :=
  status' = status ∨ status ≠ some .completed ∧ status ≠ some .cancelled ∧ status' ≠ some .active

theorem Quiet.trans {a b c : Option RentalStatus} (h : Quiet a b) (h' : Quiet b c) : Quiet a c := by
  rcases h with rfl | ⟨hcompleted, hcancelled, hactive⟩
  · exact h'
  · rcases h' with rfl | ⟨-, -, hactive'⟩
    · exact .inr ⟨hcompleted, hcancelled, hactive⟩
    · exact .inr ⟨hcompleted, hcancelled, hactive'⟩

def QuietStep (rentals rentals' : Table Rental) : Prop :=
  ∀ k, Quiet (statusOf rentals k) (statusOf rentals' k)

theorem QuietStep.refl (rentals : Table Rental) : QuietStep rentals rentals := fun _ => .inl rfl

theorem QuietStep.trans {a b c : Table Rental} (h : QuietStep a b) (h' : QuietStep b c) :
    QuietStep a c := fun k => (h k).trans (h' k)

theorem QuietStep.lifecycle {db db' : Db} (h : QuietStep db.rentals db'.rentals) (o : Operation) :
    LifecycleStep db o db' := by
  refine ⟨fun k hactive => ?_, fun k status hended hstatus => ?_⟩
  · rcases h k with hsame | ⟨-, -, hnot⟩
    · exact .inl (hsame.symm.trans hactive)
    · exact absurd hactive hnot
  · rcases h k with hsame | ⟨hcompleted, hcancelled, -⟩
    · exact hsame.trans hstatus
    · rcases hended with rfl | rfl
      · exact absurd hstatus hcompleted
      · exact absurd hstatus hcancelled

variable {rentals : Table Rental}

variable {r : Rental}

theorem statusOf_of_mem (hr : r ∈ rentals) :
    statusOf rentals r.id = some r.status := by
  have hget : rentals.get? r.id = some r := Table.get?_of_mem hr
  rw [statusOf, hget, Option.map_some]

variable {rental : Rental}

theorem statusOf_eq {k : ℕ}
    (h : rentals.get? k = some rental) : statusOf rentals k = some rental.status := by
  rw [statusOf, h, Option.map_some]

theorem statusOf_set {r x : Rental} (hr : r ∈ rentals) (hid : x.id = r.id) (k : ℕ) :
    statusOf (rentals.set x) k = if k = r.id then some x.status else statusOf rentals k := by
  by_cases hk : k = r.id
  · have hmem : x ∈ rentals.set x := Table.mem_set.mpr (.inr ⟨rfl, r, hr, hid.symm⟩)
    rw [if_pos hk, hk, ← hid, statusOf_of_mem hmem]
  · have hne : k ≠ Row.key x := fun h => hk (h.trans hid)
    rw [if_neg hk, statusOf, Table.get?_set_ne hne, statusOf]

theorem quietStep_set {r r' : Rental} (hr : r ∈ rentals)
    (hid : r'.id = r.id) (hquiet : Quiet (some r.status) (some r'.status)) :
    QuietStep rentals (rentals.set r') := by
  intro k
  rw [statusOf_set hr hid]
  split_ifs with hk
  · rw [hk, statusOf_of_mem hr]
    exact hquiet
  · exact .inl rfl

theorem quietStep_add {rental : ℕ → Rental}
    {hkey : ∀ k, Row.key (rental k) = k} (hpending : ∀ k, (rental k).status = .pendingPayment) :
    QuietStep rentals (rentals.add rental hkey) := by
  intro k
  by_cases hk : k = rentals.freshKey
  · have hnone : rentals.get? k = none := by
      rw [Table.get?_eq_none]
      intro r hr hrk
      exact absurd (hrk.trans hk) (Table.key_lt_freshKey hr).ne
    refine .inr ?_
    rw [statusOf, hnone, hk, statusOf, Table.get?_add_fresh, Option.map_some, hpending]
    decide
  · refine .inl ?_
    rw [statusOf, Table.get?_add_ne hk, statusOf]

/-! ## The endpoints -/

theorem keeps_committing {α : Type} {I : Db → Prop} {x : FleetTx α} (hx : Keeps I x) :
    Keeps I (committing x) :=
  hx.bind fun _ => (readOnly_flush.keeps.bind fun _ => keeps_commit).bind fun _ =>
    (readOnly_pure _).keeps

theorem quiet_terminate (db : Db) (now rentalId : ℕ) :
    QuietStep db.rentals ((terminateRental now rentalId).call db).2.rentals := by
  let I : Db → Prop := fun w => QuietStep db.rentals w.rentals
  have hwrite : Tentative (writeTerminated now rentalId) := by
    refine readOnly_query.tentative.bind fun _ => (readOnly_demand _ _).tentative.bind fun _ => ?_
    exact (readOnly_ensure _ _).tentative.bind fun _ => tentative_update _
  refine Keeps.call (I := I) (keeps_committing (hwrite.keeps fun s u t h hs => ?_))
    (QuietStep.refl _)
  simp only [writeTerminated, bind_ok, query_ok, demand_ok, ensure_ok, saveRental, update_ok] at h
  obtain ⟨_, _, ⟨-, rfl, rfl⟩, rental, _, ⟨hget, rfl⟩, _, _, ⟨hstatus, rfl⟩, rfl⟩ := h
  obtain ⟨hr, -⟩ := Table.get?_eq_some.mp hget
  refine QuietStep.trans hs (quietStep_set hr rfl ?_)
  by_cases hcancelled : rental.status = .cancelled
  · exact .inl (congrArg some hcancelled.symm)
  · refine .inr ⟨fun h => hstatus (Option.some.inj h), fun h => hcancelled (Option.some.inj h), ?_⟩
    exact fun hactive => by cases hactive

theorem quiet_extension (db : Db) (rentalId requestedEndDate : ℕ) :
    QuietStep db.rentals ((approveExtension rentalId requestedEndDate).call db).2.rentals := by
  let I : Db → Prop := fun w => QuietStep db.rentals w.rentals
  have hwrite : Tentative (writeExtension rentalId requestedEndDate) := by
    refine readOnly_query.tentative.bind fun _ => (readOnly_demand _ _).tentative.bind fun _ => ?_
    exact tentative_update _
  refine Keeps.call (I := I) ((hwrite.keeps fun s u t h hs => ?_).bind fun _ => keeps_safeCommit)
    (QuietStep.refl _)
  simp only [writeExtension, bind_ok, query_ok, demand_ok, saveRental, update_ok] at h
  obtain ⟨_, _, ⟨-, rfl, rfl⟩, rental, _, ⟨hget, rfl⟩, rfl⟩ := h
  obtain ⟨hr, -⟩ := Table.get?_eq_some.mp hget
  exact QuietStep.trans hs (quietStep_set hr rfl (.inl rfl))

theorem tentative_writeActive (rentalId userId : ℕ) : Tentative (writeActive rentalId userId) := by
  refine readOnly_query.tentative.bind fun _ => (readOnly_demand _ _).tentative.bind fun _ => ?_
  exact (tentative_update _).bind fun _ => (readOnly_pure _).tentative

variable {rentalId userId : ℕ}

theorem writeActive_ok {s t : Session Db} :
    writeActive rentalId userId s = (.ok r, t) ↔
      ∃ rental, UniqueIndexes s.working ∧ s.working.rentals.get? rentalId = some rental ∧
        rental.userId = userId ∧ r = { rental with status := .active } ∧
        t = ⟨s.committed, { s.working with rentals := s.working.rentals.set r }⟩ := by
  simp only [writeActive, bind_ok, query_ok, demand_ok, saveRental, update_ok, pure_ok,
    Option.filter_eq_some_iff, decide_eq_true_eq]
  constructor
  · rintro ⟨_, _, ⟨hu, rfl, rfl⟩, rental, _, ⟨⟨hget, huser⟩, rfl⟩, _, _, rfl, rfl, rfl⟩
    exact ⟨rental, hu, hget, huser, rfl, rfl⟩
  · rintro ⟨rental, hu, hget, huser, rfl, rfl⟩
    exact ⟨_, _, ⟨hu, rfl, rfl⟩, rental, _, ⟨⟨hget, huser⟩, rfl⟩, (), _, rfl, rfl, rfl⟩

/-- The router's confirmation activates the rental whatever its status is. -/
theorem confirmRental_call (db : Db) (rentalId userId : ℕ) :
    ((confirmRental rentalId userId).call db).2 = db ∨
      ∃ rental, UniqueIndexes db ∧ db.rentals.get? rentalId = some rental ∧
        rental.userId = userId ∧ ((confirmRental rentalId userId).call db).2.rentals =
          db.rentals.set { rental with status := .active } := by
  rcases call_committing (tentative_writeActive rentalId userId) db with
    ⟨e, hsame⟩ | ⟨r, t, h, -, hcall⟩
  · exact .inl (congrArg Prod.snd hsame)
  · obtain ⟨rental, hu, hget, huser, rfl, rfl⟩ := writeActive_ok.mp h
    refine .inr ⟨rental, hu, hget, huser, ?_⟩
    exact congrArg (fun c => c.2.rentals) hcall

theorem confirmRental_of_found {db : Db}
    (hu : UniqueIndexes db) (hget : db.rentals.get? rentalId = some rental)
    (huser : rental.userId = userId) : ((confirmRental rentalId userId).call db).2.rentals =
      db.rentals.set { rental with status := .active } := by
  have hwrite := writeActive_ok (s := .fresh db).mpr ⟨rental, hu, hget, huser, rfl, rfl⟩
  have hcall := call_committing_of_ok hwrite ⟨hu.serials, hu.shelfBatteries, hu.orderBatteries⟩
  exact congrArg (fun c => c.2.rentals) hcall

section

variable [Casing]

/-! ## The steps -/

/-- Cancelling a stale rental keeps a quiet distance from any store. -/
theorem quiet_cancelStale {now : ℕ} (r : Rental) (s t : Session Db)
    (u : Unit) (hr : r ∈ s.working.rentals) (hpending : r.status = .pendingPayment)
    (h : cancelStale now r s = (.ok u, t)) (hs : QuietStep rentals s.working.rentals) :
    QuietStep rentals t.working.rentals := by
  rw [(cancelStale_ok h).1]
  refine hs.trans (quietStep_set hr rfl (.inr ⟨?_, ?_, ?_⟩))
  · rw [hpending]
    decide
  · rw [hpending]
    decide
  · exact fun hactive => by cases hactive

theorem quiet_call (db : Db) (c : Call)
    (hc : ∀ now side rentalId userId proof reference,
      c ≠ .confirmRentalVerified now side rentalId userId proof reference) :
    QuietStep db.rentals (step db c).rentals := by
  let I : Db → Prop := fun w => QuietStep db.rentals w.rentals
  have hcleanup : ∀ now userId, Keeps I (cleanupStalePendingRentals now userId) :=
    fun now userId => keeps_cleanup now quiet_cancelStale _
  have hrefl : I db := QuietStep.refl _
  cases c with
  | initiateRental now userId rentalIn =>
    refine (keeps_initiate (I := I) (hcleanup now _) fun rental s t hr hs => ?_).call hrefl
    obtain ⟨hkey, hadded⟩ := hr.added
    show QuietStep _ t.working.rentals
    rw [hadded]
    exact QuietStep.trans hs (quietStep_add hr.status)
  | confirmRentalVerified now side rentalId userId proof reference =>
    exact absurd rfl (hc now side rentalId userId proof reference)
  | cleanupStalePendingRentals now userId => exact (hcleanup now userId).call hrefl
  | returnBattery now rentalId stationId =>
    refine (keeps_return (I := I) (fun rental s t hr hs => ?_) _).call hrefl
    show QuietStep _ t.working.rentals
    rw [hr.rentals]
    refine QuietStep.trans hs (quietStep_set hr.mem rfl (.inr ?_))
    rw [hr.active]
    exact ⟨by decide, by decide, fun hactive => by cases hactive⟩
  | executeSwap now rentalId newBatteryId stationId autoCommit callerCommits =>
    have hswap : Keeps I (executeSwap now rentalId newBatteryId stationId autoCommit) := by
      refine keeps_swap (fun rental old new s t hr hs => ?_) _ _ _ _
      show QuietStep _ t.working.rentals
      rw [hr.rentals]
      exact QuietStep.trans hs (quietStep_set hr.mem rfl (.inl rfl))
    refine Keeps.call (I := I) (hswap.bind fun _ => ?_) hrefl
    refine (keeps_unlessSkipped _ ?_).bind fun _ => (readOnly_pure _).keeps
    exact readOnly_flush.keeps.bind fun _ => keeps_commit

theorem confirm_outcome (db : Db) (now : ℕ) (side : PaymentSide) (rentalId userId : ℕ)
    (proof : PaymentProof) (reference : Option String) :
    ((confirmRentalVerified now side rentalId userId proof reference).call db).2 = db ∨
      ∃ rental, rental.id = rentalId ∧ Activated side proof rental db
        ((confirmRentalVerified now side rentalId userId proof reference).call db).2 := by
  let I : Db → Prop := fun w => w = db ∨
    ∃ rental, rental.id = rentalId ∧ Activated side proof rental db w
  refine Keeps.call (I := I) (keeps_confirm (fun rental s t hid hr hs => ?_) _ _ _) (.inl rfl)
  rcases hs with rfl | ⟨before, hbefore, hactivated⟩
  · exact .inr ⟨rental, hid, hr⟩
  · -- the rental is active already, and only a pending one is activated
    have hmem := hr.mem
    rw [hactivated.rentals] at hmem
    rcases Table.mem_set.mp hmem with ⟨-, hne⟩ | ⟨hsame, -⟩
    · exact absurd (hid.trans hbefore.symm) hne
    · have hpending := hr.pending
      rw [hsame] at hpending
      cases hpending

/-- A verified confirmation changes no rental, or activates one on a payment that covers it. -/
theorem confirm_call (db : Db) (now : ℕ) (side : PaymentSide) (rentalId userId : ℕ)
    (proof : PaymentProof) (reference : Option String) :
    let o := Call.confirmRentalVerified now side rentalId userId proof reference
    (step db o).rentals = db.rentals ∨
      ∃ rental ∈ db.rentals, rental.id = rentalId ∧ rental.status = .pendingPayment ∧
        VerifiedFor db (.service o) rentalId ∧
        (step db o).rentals = db.rentals.set { rental with status := .active } := by
  intro o
  rcases confirm_outcome db now side rentalId userId proof reference with hsame | ⟨rental, hid, hr⟩
  · exact .inl (congrArg Db.rentals hsame)
  · exact .inr ⟨rental, hr.mem, hid, hr.pending, ⟨now, side, userId, proof, reference, rfl,
      hr.signed, rental, hr.mem, hid, hr.payment⟩, hr.rentals⟩

/-! ## Runs -/

/-- A `confirm_rental` that finds its rental finds it active. -/
def ConfirmsActive (db : Db) : Operation → Prop
  | .confirmRental rentalId userId => UniqueIndexes db → ∀ rental,
      db.rentals.get? rentalId = some rental → rental.userId = userId → rental.status = .active
  | _ => True

/-- **One step** follows the lifecycle exactly if no unpaid rental is confirmed by the router. -/
theorem lifecycle_iff (db : Db) (o : Operation) :
    LifecycleStep db o (perform db o) ↔ ConfirmsActive db o := by
  cases o with
  | service c =>
    refine iff_of_true ?_ trivial
    by_cases hc : ∀ now side rentalId userId proof reference,
        c ≠ .confirmRentalVerified now side rentalId userId proof reference
    · exact (quiet_call db c hc).lifecycle _
    · push Not at hc
      obtain ⟨now, side, rentalId, userId, proof, reference, rfl⟩ := hc
      rcases confirm_call db now side rentalId userId proof reference with
        hsame | ⟨rental, hr, rfl, hpending, hverified, hset⟩
      · refine QuietStep.lifecycle ?_ _
        show QuietStep db.rentals (step db _).rentals
        rw [hsame]
        exact .refl _
      · have hstatus := statusOf_set (x := { rental with status := .active }) hr rfl
        rw [← hset] at hstatus
        refine ⟨fun k hactive => ?_, fun k status hended hbefore => ?_⟩
        · by_cases hk : k = rental.id
          · rw [hk]
            exact .inr ⟨(statusOf_of_mem hr).trans (congrArg some hpending), hverified⟩
          · exact .inl (by rwa [perform, hstatus, if_neg hk] at hactive)
        · rw [perform, hstatus, if_neg]
          · exact hbefore
          · rintro rfl
            rw [statusOf_of_mem hr, hpending] at hbefore
            rcases hended with rfl | rfl <;> cases hbefore
  | confirmRental rentalId userId =>
    constructor
    · intro h hu rental hget huser
      have hid : rental.id = rentalId := (Table.get?_eq_some.mp hget).2
      have hr := (Table.get?_eq_some.mp hget).1
      have hafter : statusOf (perform db (.confirmRental rentalId userId)).rentals rentalId =
          some .active := by
        have hstatus := statusOf_set (x := { rental with status := .active }) hr rfl rentalId
        rw [if_pos hid.symm] at hstatus
        rw [perform, confirmRental_of_found hu hget huser, hstatus]
      rcases h.activated rentalId hafter with hbefore | ⟨-, now, side, user, proof, ref, ho, -⟩
      · rw [statusOf_eq hget] at hbefore
        exact Option.some.inj hbefore
      · cases ho
    · intro h
      refine QuietStep.lifecycle ?_ _
      rcases confirmRental_call db rentalId userId with hsame | ⟨rental, hu, hget, huser, hset⟩
      · rw [perform, hsame]
        exact .refl _
      · rw [perform, hset]
        refine quietStep_set (Table.get?_eq_some.mp hget).1 rfl (.inl ?_)
        exact congrArg some (h hu rental hget huser).symm
  | terminateRental now rentalId =>
    exact iff_of_true ((quiet_terminate db now rentalId).lifecycle _) trivial
  | approveExtension rentalId requestedEndDate =>
    exact iff_of_true ((quiet_extension db rentalId requestedEndDate).lifecycle _) trivial

/-- **The lifecycle over runs.** -/
theorem lifecycle_over_runs (db : Db) (os : List Operation) :
    Along perform (fun db o => LifecycleStep db o (perform db o)) db os ↔
      Along perform ConfirmsActive db os := by
  have hsame : (fun db o => LifecycleStep db o (perform db o)) = ConfirmsActive :=
    funext fun db => funext fun o => propext (lifecycle_iff db o)
  rw [hsame]

end

/-- `rentAndReturn`, and then the renter's `confirm_rental` of the completed rental. -/
def confirmReturned : List Operation :=
  rentAndReturn.map .service ++ [.confirmRental 1 1]

/-- The router makes a returned rental active again. -/
theorem confirm_rental_revives :
    statusOf (run perform rentalStore (confirmReturned.take 3)).rentals 1 = some .completed ∧
      statusOf (run perform rentalStore confirmReturned).rentals 1 = some .active ∧
      ¬ Along perform (fun db o => LifecycleStep db o (perform db o)) rentalStore
        confirmReturned := by
  have hbefore : statusOf (run perform rentalStore (confirmReturned.take 3)).rentals 1 =
      some .completed := by decide +kernel
  have hafter : statusOf (run perform rentalStore confirmReturned).rentals 1 = some .active := by
    decide +kernel
  refine ⟨hbefore, hafter, fun h => ?_⟩
  have hlast := (along_append.mp h).2.1.ended 1 .completed (.inl rfl) hbefore
  exact absurd (hlast.symm.trans hafter) (by decide)

end WezuBackend.Rental.Lifecycle
