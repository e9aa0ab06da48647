import WezuBackend.Rental.Effects
import WezuBackend.Lib.Interleaving

/-!
# Calls of `initiate_rental` at the same time

Each call has a session of its own and sees what the others have committed.  It cancels the user's
stale rentals, counts the live ones, locks the battery's row and checks it, prices the rental with
the promo code's row locked, takes a use of the promo code, inserts the rental and commits.  The
locks are the call's until it ends; a call that wants a row another one has locked waits.  It may
be made to raise wherever it is.

What a call has written before its commit is in its session alone.  The rows it has written are
locked, so a commit writes them as of the rows that are stored then.

`step_cases` says what a step can do to the store.
-/

namespace WezuBackend.Rental.Initiation

open Lib.Tables Lib.Atomicity Lib.Atomicity.Tx Lib.Interleaving Core.Base
open Core.Letters Fleet.Model Fleet.Consistency Fleet.Transitions Rental.Service Rental.Effects

/-! ## The parts of the program -/

/-- The user's active and pending rentals. -/
def liveRentals (userId : ℕ) (db : Db) : List Rental :=
  db.rentals.filter fun r => r.userId = userId ∧ isLive r

/-- The count; `maxActive` is the setting `MAX_ACTIVE_RENTALS_PER_USER`. -/
def countRentals (maxActive userId : ℕ) : FleetTx Unit := do
  let db ← query
  ensure ((liveRentals userId db).length < max 1 maxActive)
    (.http 409 s!"Maximum active rentals reached ({max 1 maxActive})")

/-- The battery, once its row is locked. -/
def lockBattery (rentalIn : RentalCreate) : FleetTx Battery := do
  let db ← query
  let battery ← demand (db.batteries.get? rentalIn.batteryId) (.http 404 "Battery not found")
  checkRentable rentalIn battery
  ensure (db.rentals.filter (fun r => r.batteryId = rentalIn.batteryId ∧ isLive r) = [])
    (.http 409 "Battery is already assigned to an active rental")
  return battery

/-- The promo code whose row is locked for the price. -/
def pricedPromo [Casing] (rentalIn : RentalCreate) (db : Db) : Option ℕ :=
  (truthy rentalIn.promoCode).bind fun code =>
    (db.promoCodes.find? fun p => sqlUpper p.code = normal code).map PromoCode.id

/-- The promo code that a use is taken of. -/
def usedPromo (price : PriceDetails) : Option ℕ := price.promoCodeId.filter (· ≠ 0)

def withUse (price : PriceDetails) (promoCodes : Table PromoCode) : Table PromoCode :=
  (usedPromo price).elim promoCodes fun k =>
    promoCodes.update (fun p => p.id = k) (fun p => { p with usageCount := p.usageCount + 1 })
      fun _ => rfl

def takeUse (price : PriceDetails) : FleetTx Unit :=
  update fun db => { db with promoCodes := withUse price db.promoCodes }

def newRental (now userId : ℕ) (rentalIn : RentalCreate) (price : PriceDetails)
    (expectedEndTime id : ℕ) : Rental :=
  { id, userId, batteryId := rentalIn.batteryId, startStationId := rentalIn.startStationId
    startTime := now, expectedEndTime, totalAmount := price.totalPayable
    securityDeposit := price.deposit, status := .pendingPayment }

section

variable [Casing]

/-- The row of the rental and the battery's reservation. -/
def insertRental (now userId : ℕ) (rentalIn : RentalCreate) (battery : Battery)
    (price : PriceDetails) (expectedEndTime : ℕ) : FleetTx Rental := do
  let k ← addRental (newRental now userId rentalIn price expectedEndTime)
  let _ ← applyBatteryTransition now battery
    { toStatus := some .reserved
      toLocationType := some .station
      toLocationId := some (some rentalIn.startStationId)
      eventType := "rental_reserved"
      eventDescription := s!"Reserved for rental #{k}"
      actorId := some userId }
  return newRental now userId rentalIn price expectedEndTime k

/-- The rental, once its price is known. -/
def placeRental (now userId : ℕ) (rentalIn : RentalCreate) (battery : Battery)
    (price : PriceDetails) : FleetTx Rental := do
  let expectedEndTime ← lift (expectedEnd now rentalIn.durationDays)
  insertRental now userId rentalIn battery price expectedEndTime

theorem reserveRental_eq (now userId : ℕ) (rentalIn : RentalCreate) :
    reserveRental now userId rentalIn = (do
      let battery ← rentableBattery userId rentalIn
      let price ← calculatePrice now rentalIn.batteryId rentalIn.durationDays rentalIn.promoCode
      reservePromo price.promoCodeId
      placeRental now userId rentalIn battery price) := by
  delta reserveRental
  refine bind_congr fun battery => bind_congr fun price => bind_congr fun _ => ?_
  delta placeRental
  exact bind_congr fun expectedEndTime => by
    delta insertRental newRental
    rfl

def writeRental (now userId : ℕ) (rentalIn : RentalCreate) (battery : Battery)
    (price : PriceDetails) : FleetTx Rental := do
  takeUse price
  placeRental now userId rentalIn battery price

theorem tentative_writeRental (now userId : ℕ) (rentalIn : RentalCreate) (battery : Battery)
    (price : PriceDetails) : Tentative (writeRental now userId rentalIn battery price) := by
  refine (tentative_update _).bind fun _ => (readOnly_lift _).tentative.bind fun _ => ?_
  refine Tentative.bind ?_ fun k => ?_
  · refine readOnly_look.tentative.bind fun _ => (tentative_update _).bind fun _ => ?_
    exact readOnly_flush.tentative.bind fun _ => (readOnly_pure _).tentative
  · exact (tentative_applyBatteryTransition _ _ _).bind fun _ => (readOnly_pure _).tentative

end

theorem readOnly_lockBattery (rentalIn : RentalCreate) : ReadOnly (lockBattery rentalIn) := by
  refine readOnly_query.bind fun db => (readOnly_demand _ _).bind fun battery => ?_
  refine (readOnly_checkRentable _ _).bind fun _ => ?_
  exact (readOnly_ensure _ _).bind fun _ => readOnly_pure _

variable {s t : Session Db}

variable {u : Unit}

theorem countRentals_ok {maxActive userId : ℕ} (h : countRentals maxActive userId s = (.ok u, t)) :
    (liveRentals userId s.working).length < max 1 maxActive := by
  simp only [countRentals, bind_ok, query_ok, ensure_ok] at h
  obtain ⟨_, _, ⟨-, rfl, rfl⟩, hlt, -⟩ := h
  exact hlt

variable {price : PriceDetails}

variable {now : ℕ} {rentalIn : RentalCreate}

/-- The price is that of the promo code whose row is locked, and that has a use left. -/
theorem calculatePrice_promo [Casing]
    (h : calculatePrice now rentalIn.batteryId rentalIn.durationDays rentalIn.promoCode s =
      (.ok price, t)) : price.promoCodeId = pricedPromo rentalIn s.working ∧
      ∀ k ∈ price.promoCodeId, ∃ promo, s.working.promoCodes.get? k = some promo ∧
        (0 < promo.usageLimit → promo.usageCount < promo.usageLimit) := by
  simp only [calculatePrice, bind_ok, ensure_ok, query_ok, demand_ok, pure_ok] at h
  obtain ⟨_, _, ⟨-, rfl⟩, _, _, ⟨-, rfl, rfl⟩, _, _, ⟨-, rfl⟩, promo, _, hpromo, rfl, rfl⟩ := h
  unfold pricedPromo
  unfold promoOf at hpromo
  rcases hcode : truthy rentalIn.promoCode with _ | code
  · rw [hcode] at hpromo
    obtain ⟨rfl, -⟩ := pure_ok.mp hpromo
    exact ⟨rfl, fun k hk => by cases hk⟩
  · rw [hcode] at hpromo
    simp only [checkPromo, bind_ok, ensure_ok, query_ok, demand_ok, lift_ok, pure_ok] at hpromo
    obtain ⟨_, _, ⟨-, rfl⟩, _, _, ⟨-, rfl, rfl⟩, found, _, ⟨hfound, rfl⟩, _, _, hchecks, h⟩ :=
      hpromo
    obtain ⟨_, _, ⟨-, rfl⟩, _, _, ⟨-, rfl⟩, _, _, ⟨-, rfl⟩, _, _, ⟨huses, rfl⟩, -⟩ := hchecks
    obtain ⟨_, _, -, rfl, -⟩ := h
    refine ⟨by rw [Option.bind_some, hfound]; rfl, ?_⟩
    rintro _ ⟨⟩
    exact ⟨found, Table.get?_of_mem (Table.find?_mem hfound), huses⟩

@[simp] theorem key_newRental (now userId : ℕ) (rentalIn : RentalCreate) (price : PriceDetails)
    (expectedEndTime k : ℕ) : Row.key (newRental now userId rentalIn price expectedEndTime k) = k :=
  rfl

/-- What a call writes: a use of the promo code, and a pending rental of the user. -/
structure Written (userId : ℕ) (price : PriceDetails) (rental : Rental) (db db' : Db) : Prop where
  promoCodes : db'.promoCodes = withUse price db.promoCodes
  rentals : db'.rentals.rows = db.rentals.rows ++ [rental]
  id : rental.id = db.rentals.freshKey
  user : rental.userId = userId
  status : rental.status = .pendingPayment

theorem writeRental_ok [Casing] {now userId : ℕ} {battery : Battery}
    {rental : Rental} (h : writeRental now userId rentalIn battery price s = (.ok rental, t)) :
    Written userId price rental s.working t.working := by
  rw [writeRental, bind_ok] at h
  obtain ⟨_, _, huse, h⟩ := h
  obtain rfl := update_ok.mp huse
  rw [placeRental, bind_ok] at h
  obtain ⟨_, _, hend, h⟩ := h
  obtain ⟨-, rfl⟩ := lift_ok.mp hend
  rw [insertRental, bind_ok] at h
  obtain ⟨k, s₁, hadd, h⟩ := h
  rw [bind_ok] at h
  obtain ⟨_, s₂, htrans, h⟩ := h
  obtain ⟨rfl, rfl⟩ := pure_ok.mp h
  obtain ⟨-, -, a, htransitioned⟩ := applyBatteryTransition_ok htrans
  have hpromos := congrArg Db.promoCodes htransitioned.rest
  have hrentals := congrArg (fun db => db.rentals.rows) htransitioned.rest
  simp only [addRental, bind_ok, look_ok, update_ok, flush_ok, pure_ok] at hadd
  obtain ⟨_, _, ⟨rfl, rfl⟩, _, _, rfl, _, _, ⟨-, rfl⟩, rfl, rfl⟩ := hadd
  exact ⟨hpromos, hrentals, rfl, rfl, rfl⟩

variable {userId : Option ℕ}

/-- The clean-up leaves the promo codes and the ids of the rentals alone. -/
theorem cleanup_frame [Casing] {db db' : Db} {result : Except Exc ℕ}
    (h : (cleanupStalePendingRentals now userId).call db = (result, db')) :
    db'.promoCodes = db.promoCodes ∧ db'.rentals.keys = db.rentals.keys := by
  have hkeeps := keeps_cleanup (I := fun d => d.promoCodes = db.promoCodes ∧
    d.rentals.keys = db.rentals.keys) now (fun r s t u _ _ hcancel hs => ?_) userId
  · have hcall := hkeeps.call (s := db) ⟨rfl, rfl⟩
    rw [h] at hcall
    exact hcall
  · rw [cancelStale_promoCodes hcancel, (cancelStale_ok hcancel).1, Table.keys_set]
    exact hs

/-! ## A call, step by step -/

inductive Stage where
  | called
  /-- the user's stale rentals are cancelled -/
  | cleaned
  /-- the user's live rentals are below the maximum -/
  | counted
  /-- the battery's row is locked, and the battery can be rented -/
  | locked (battery : Battery)
  /-- the promo code's row is locked, and the price is known -/
  | priced (battery : Battery) (price : PriceDetails)
  /-- the use of the promo code is taken -/
  | promoTaken (battery : Battery) (price : PriceDetails)
  /-- the rental is in the session -/
  | inserted (battery : Battery) (price : PriceDetails)
  | ended (result : Except Exc Rental)

structure Request where
  now : ℕ
  userId : ℕ
  rentalIn : RentalCreate
  /-- where the call is made to raise: a lost connection, a lock that is not given -/
  raises : Stage → Option Exc := fun _ => none

/-- A rental that was committed, and the promo code that it was priced with. -/
structure Commit where
  rentalId : ℕ
  promoCodeId : Option ℕ
  deriving DecidableEq, Repr

/-- The committed tables, and who has locked which rows. -/
structure Store (ι : Type) where
  db : Db
  batteryLock : ℕ → Option ι := fun _ => none
  promoLock : ℕ → Option ι := fun _ => none
  commits : List Commit := []

section

variable {ι : Type} [DecidableEq ι]

/-- Nobody else has locked the row. -/
def Free (lock : ℕ → Option ι) (k : ℕ) (i : ι) : Prop := ∀ j ∈ lock k, j = i

instance (lock : ℕ → Option ι) (k : ℕ) (i : ι) : Decidable (Free lock k i) := by
  unfold Free
  infer_instance

def taken (lock : ℕ → Option ι) (k : ℕ) (i : ι) : ℕ → Option ι := Function.update lock k (some i)

/-- With the row of the promo code, if there is one. -/
def withRow (lock : ℕ → Option ι) (k : Option ℕ) (i : ι) : ℕ → Option ι :=
  k.elim lock fun k => taken lock k i

def released (lock : ℕ → Option ι) (i : ι) : ℕ → Option ι := fun k => (lock k).filter (· ≠ i)

/-- The end of a call: its locks are gone. -/
def endAs (i : ι) (store : Store ι) (result : Except Exc Rental) : Store ι × Stage :=
  ({ store with
      batteryLock := released store.batteryLock i, promoLock := released store.promoLock i },
    .ended result)

/-- An exception ends the call. -/
def attempt {α : Type} (i : ι) (store : Store ι) (result : Except Exc α)
    (next : α → Store ι × Stage) : Store ι × Stage :=
  match result with
  | .ok a => next a
  | .error e => endAs i store (.error e)

variable [Casing]

/-- The next step of a call that does not raise for reasons of its own. -/
def proceed (maxActive : ℕ) (request : Request) (i : ι) (store : Store ι) :
    Stage → Store ι × Stage
  | .called =>
    let cleanup := (cleanupStalePendingRentals request.now (some request.userId)).call store.db
    attempt i { store with db := cleanup.2 } cleanup.1 fun _ =>
      ({ store with db := cleanup.2 }, .cleaned)
  | .cleaned =>
    attempt i store ((countRentals maxActive request.userId).call store.db).1 fun _ =>
      (store, .counted)
  | .counted =>
    if Free store.batteryLock request.rentalIn.batteryId i then
      attempt i store ((lockBattery request.rentalIn).call store.db).1 fun battery =>
        ({ store with batteryLock := taken store.batteryLock request.rentalIn.batteryId i },
          .locked battery)
    else (store, .counted)
  | .locked battery =>
    if ∀ k ∈ pricedPromo request.rentalIn store.db, Free store.promoLock k i then
      attempt i store ((calculatePrice request.now request.rentalIn.batteryId
        request.rentalIn.durationDays request.rentalIn.promoCode).call store.db).1 fun price =>
        ({ store with
            promoLock := withRow store.promoLock (pricedPromo request.rentalIn store.db) i },
          .priced battery price)
    else (store, .locked battery)
  | .priced battery price =>
    attempt i store ((reservePromo price.promoCodeId).call store.db).1 fun _ =>
      (store, .promoTaken battery price)
  | .promoTaken battery price =>
    attempt i store ((writeRental request.now request.userId request.rentalIn battery price).call
      store.db).1 fun _ => (store, .inserted battery price)
  | .inserted battery price =>
    let commit := (committing (writeRental request.now request.userId request.rentalIn battery
      price)).call store.db
    attempt i store commit.1 fun rental =>
      endAs i { store with
        db := commit.2, commits := ⟨rental.id, price.promoCodeId⟩ :: store.commits } (.ok rental)
  | .ended result => (store, .ended result)

/-- The next step of a call. -/
def advance (maxActive : ℕ) (request : Request) (i : ι) (store : Store ι) (stage : Stage) :
    Store ι × Stage :=
  match stage, request.raises stage with
  | .ended result, _ => (store, .ended result)
  | _, some e => endAs i store (.error e)
  | stage, none => proceed maxActive request i store stage

/-- The next step of call `i`. -/
def next (maxActive : ℕ) (requests : ι → Request) :
    World ι (Store ι) Stage → ι → World ι (Store ι) Stage :=
  turn fun i => advance maxActive (requests i) i

@[simp] theorem next_store (maxActive : ℕ) (requests : ι → Request) (w : World ι (Store ι) Stage)
    (i : ι) : (next maxActive requests w i).store =
      (advance maxActive (requests i) i w.store (w.position i)).1 := rfl

/-- Nobody has begun. -/
def start (db : Db) : World ι (Store ι) Stage := .start { db } .called

/-! ## What a step does -/

/-- What a step of a call can do, by the stage that it starts from. -/
inductive Moves (maxActive : ℕ) (request : Request) (i : ι) (store : Store ι) :
    Stage → Store ι × Stage → Prop where
  /-- it waits for a lock, or has ended -/
  | stays (stage : Stage) : Moves maxActive request i store stage (store, stage)
  | raised {stage : Stage} (e : Exc) :
    Moves maxActive request i store stage (endAs i store (.error e))
  | cleanupRaised {db : Db} (e : Exc)
    (h : (cleanupStalePendingRentals request.now (some request.userId)).call store.db =
      (.error e, db)) :
    Moves maxActive request i store .called (endAs i { store with db } (.error e))
  | cleaned {n : ℕ} {db : Db}
    (h : (cleanupStalePendingRentals request.now (some request.userId)).call store.db =
      (.ok n, db)) :
    Moves maxActive request i store .called ({ store with db }, .cleaned)
  | counted (h : (liveRentals request.userId store.db).length < max 1 maxActive) :
    Moves maxActive request i store .cleaned (store, .counted)
  | locked {battery : Battery} (hfree : Free store.batteryLock request.rentalIn.batteryId i)
    (h : lockBattery request.rentalIn (.fresh store.db) = (.ok battery, .fresh store.db)) :
    Moves maxActive request i store .counted
      ({ store with batteryLock := taken store.batteryLock request.rentalIn.batteryId i },
        .locked battery)
  | priced {battery : Battery} {price : PriceDetails}
    (hfree : ∀ k ∈ pricedPromo request.rentalIn store.db, Free store.promoLock k i)
    (h : calculatePrice request.now request.rentalIn.batteryId request.rentalIn.durationDays
      request.rentalIn.promoCode (.fresh store.db) = (.ok price, .fresh store.db)) :
    Moves maxActive request i store (.locked battery)
      ({ store with
          promoLock := withRow store.promoLock (pricedPromo request.rentalIn store.db) i },
        .priced battery price)
  | promoTaken {battery : Battery} {price : PriceDetails} {t : Session Db}
    (h : reservePromo price.promoCodeId (.fresh store.db) = (.ok (), t)) :
    Moves maxActive request i store (.priced battery price) (store, .promoTaken battery price)
  | inserted (battery : Battery) (price : PriceDetails) :
    Moves maxActive request i store (.promoTaken battery price) (store, .inserted battery price)
  | committed {battery : Battery} {price : PriceDetails} {rental : Rental} {t : Session Db}
    (h : writeRental request.now request.userId request.rentalIn battery price
      (.fresh store.db) = (.ok rental, t)) :
    Moves maxActive request i store (.inserted battery price)
      (endAs i { store with
        db := t.working, commits := ⟨rental.id, price.promoCodeId⟩ :: store.commits }
        (.ok rental))

theorem proceed_moves (maxActive : ℕ) (request : Request) (i : ι) (store : Store ι)
    (stage : Stage) :
    Moves maxActive request i store stage (proceed maxActive request i store stage) := by
  cases stage with
  | called =>
    rw [proceed]
    rcases h : (cleanupStalePendingRentals request.now (some request.userId)).call store.db with
      ⟨e | n, db⟩
    · exact .cleanupRaised e h
    · exact .cleaned h
  | cleaned =>
    rw [proceed]
    rcases h : ((countRentals maxActive request.userId).call store.db).1 with e | u
    · exact .raised e
    · obtain ⟨t, hrun⟩ := result_ok h
      exact .counted (countRentals_ok hrun)
  | counted =>
    rw [proceed]
    by_cases hfree : Free store.batteryLock request.rentalIn.batteryId i
    · rw [if_pos hfree]
      rcases h : ((lockBattery request.rentalIn).call store.db).1 with e | battery
      · exact .raised e
      · obtain ⟨t, hrun⟩ := result_ok h
        obtain rfl := (readOnly_lockBattery _).eq hrun
        exact .locked hfree hrun
    · rw [if_neg hfree]
      exact .stays _
  | locked battery =>
    rw [proceed]
    by_cases hfree : ∀ k ∈ pricedPromo request.rentalIn store.db, Free store.promoLock k i
    · rw [if_pos hfree]
      rcases h : ((calculatePrice request.now request.rentalIn.batteryId
        request.rentalIn.durationDays request.rentalIn.promoCode).call store.db).1 with e | price
      · exact .raised e
      · obtain ⟨t, hrun⟩ := result_ok h
        obtain rfl := (readOnly_calculatePrice _ _ _ _).eq hrun
        exact .priced hfree hrun
    · rw [if_neg hfree]
      exact .stays _
  | priced battery price =>
    rw [proceed]
    rcases h : ((reservePromo price.promoCodeId).call store.db).1 with e | u
    · exact .raised e
    · obtain ⟨t, hrun⟩ := result_ok h
      exact .promoTaken hrun
  | promoTaken battery price =>
    rw [proceed]
    rcases h : ((writeRental request.now request.userId request.rentalIn battery price).call
      store.db).1 with e | rental
    · exact .raised e
    · exact .inserted battery price
  | inserted battery price =>
    rw [proceed]
    rcases call_committing (tentative_writeRental request.now request.userId request.rentalIn
      battery price) store.db with ⟨e, h⟩ | ⟨rental, t, hrun, -, h⟩
    · rw [h]
      exact .raised e
    · rw [h]
      exact .committed hrun
  | ended result => exact .stays _

/-- **What a turn does**: a call raises, waits, or moves on to its next stage. -/
theorem advance_moves (maxActive : ℕ) (request : Request) (i : ι) (store : Store ι)
    (stage : Stage) :
    Moves maxActive request i store stage (advance maxActive request i store stage) := by
  unfold advance
  split
  · exact .stays _
  · exact .raised _
  · exact proceed_moves maxActive request i store _

omit [DecidableEq ι] in
theorem cleanup_fresh {now n : ℕ} {db : Db} {t : Session Db}
    (h : cleanupStalePendingRentals now userId (.fresh db) = (.ok n, t)) :
    t = .fresh t.committed := by
  rw [cleanupStalePendingRentals, bind_ok] at h
  obtain ⟨cancelled, s, hcancel, h⟩ := h
  rw [bind_ok] at h
  obtain ⟨_, t', hcommit, h⟩ := h
  obtain ⟨rfl, rfl⟩ := pure_ok.mp h
  unfold unlessSkipped at hcommit
  split_ifs at hcommit with hzero
  · obtain ⟨-, rfl⟩ := pure_ok.mp hcommit
    simp only [cancelStales, bind_ok, query_ok, pure_ok] at hcancel
    obtain ⟨_, _, ⟨-, rfl, rfl⟩, _, _, hloop, hlength, rfl⟩ := hcancel
    have hnone : staleRentals now userId (Session.fresh db).working = [] :=
      List.eq_nil_of_length_eq_zero (hlength.trans (of_decide_eq_true hzero))
    rw [hnone] at hloop
    obtain ⟨-, rfl⟩ := pure_ok.mp hloop
    rfl
  · rw [safeCommit_eq] at hcommit
    split_ifs at hcommit
    · obtain ⟨-, rfl⟩ := Prod.mk.inj hcommit
      rfl
    · cases hcommit

omit [DecidableEq ι] [Casing] in
/-- To take a use by the id of the promo code is to take it of the row that was found. -/
theorem takeUse_of_reserved
    (h : reservePromo price.promoCodeId s = (.ok u, t)) : takeUse price s = (.ok u, t) := by
  have hused : price.promoCodeId.filter (· ≠ 0) = usedPromo price := rfl
  unfold reservePromo at h
  rw [hused] at h
  refine update_ok.mpr ?_
  unfold withUse
  rcases hk : usedPromo price with _ | k
  · rw [hk] at h
    obtain ⟨-, rfl⟩ := pure_ok.mp h
    rfl
  · rw [hk] at h
    simp only [bind_ok, query_ok, demand_ok, update_ok] at h
    obtain ⟨_, _, ⟨-, rfl, rfl⟩, promo, _, ⟨hpromo, rfl⟩, rfl⟩ := h
    obtain ⟨hmem, hkey⟩ := Table.get?_eq_some.mp (Option.filter_eq_some_iff.mp hpromo).1
    rw [Option.elim_some, Table.update_eq_set hmem]
    intro x
    rw [decide_eq_true_eq, hkey]
    rfl

end

theorem nodup_station : (([{ id := 3 }] : List Station).map Row.key).Nodup := by decide

/-- Two batteries at one station, and a promo code for one use. -/
def shop : Db where
  batteries := ⟨[
    { id := 7, serialNumber := "B7", status := .available
      locationType := some .station, locationId := some 3 },
    { id := 8, serialNumber := "B8", status := .available
      locationType := some .station, locationId := some 3 }], by decide⟩
  stations := ⟨[{ id := 3 }], nodup_station⟩
  promoCodes := ⟨[{ id := 5, code := "ONCE", validFrom := 0, usageLimit := 1 }], by decide⟩

end WezuBackend.Rental.Initiation
