import WezuBackend.Rental.AppliedFees

/-!
# Waiver requests

`request_late_fee_waiver` refuses a second request while one is pending; the unique index on
`late_fee_waivers.late_fee_id` refuses one after any other, pending or not.  So the owner of a late
fee is served (`Served`) as long as a reviewed waiver leaves nothing outstanding.  The two endpoints
that write waivers beside the service are steps of a run too.
-/

namespace WezuBackend.Rental.Waivers

open Lib.Tables Lib.Atomicity Lib.Atomicity.Tx Lib.Runs Core.Amounts Core.Letters
open Rental.Service Rental.LateFees Rental.LateFeeBalance
open Rental.AppliedFees

/-! ## The endpoints -/

/-- `POST /rentals/{rental_id}/late-fees/waiver`. -/
def postLateFeeWaiver (rentalId userId : ℕ) (requestedWaiverAmount : ℤ) (reason : String)
    (supportingDocuments : Option String) : LateTx LateFeeWaiver := thenCommit do
  let db ← look
  let lateFee ← demand (feeOf rentalId db) (.http 404 "No late fees found")
  ensure (lateFee.userId = userId) (.http 403 "Not authorized")
  ensure (lateFee.amountOutstanding ≠ 0) (.http 400 "No outstanding late fees")
  ensure (¬ ∃ w ∈ db.lateFeeWaivers, w.lateFeeId = lateFee.id) .integrityError
  let waiver (id : ℕ) : LateFeeWaiver :=
    { id, lateFeeId := lateFee.id, userId, requestedWaiverAmount, reason, supportingDocuments
      status := .pending }
  update fun db => { db with lateFeeWaivers := db.lateFeeWaivers.add waiver }
  return waiver db.lateFeeWaivers.freshKey

/-- What the administrator's review of a waiver makes of its late fee. -/
def settle (lateFee : LateFee) (approvedAmount : ℤ) : LateFee :=
  let amountOutstanding := max 0 (lateFee.totalLateFee - lateFee.amountPaid - approvedAmount)
  { lateFee with
    amountWaived := approvedAmount
    amountOutstanding
    paymentStatus := if amountOutstanding = 0 then .waived else lateFee.paymentStatus }

/-- `PUT /admin/rentals/late-fees/waivers/{waiver_id}/review`. -/
def reviewWaiver (now waiverId adminId : ℕ) (status : ReviewStatus) (approvedAmount : Option ℤ)
    (adminNotes : Option String) : LateTx Unit := thenCommit do
  let db ← look
  let waiver ← demand (db.lateFeeWaivers.get? waiverId) (.http 404 "Waiver request not found")
  let waiver :=
    { waiver with status, adminNotes, reviewedBy := some adminId, reviewedAt := some now }
  match approvedAmount.filter fun _ => status = .approved with
  | some amount => do
    match db.lateFees.get? waiver.lateFeeId with
    | some lateFee => saveLateFee (settle lateFee amount)
    | none => pure ()
    saveWaiver { waiver with approvedWaiverAmount := some amount }
  | none => saveWaiver waiver

/-- The operations of the service and of the two endpoints. -/
inductive Request where
  | service (op : Op)
  | postLateFeeWaiver (rentalId userId : ℕ) (requestedWaiverAmount : ℤ) (reason : String)
      (supportingDocuments : Option String)
  | reviewWaiver (now waiverId adminId : ℕ) (status : ReviewStatus) (approvedAmount : Option ℤ)
      (adminNotes : Option String)

/-- The stored state after a request. -/
def serve [Casing] (db : LateDb) : Request → LateDb
  | .service op => step db op
  | .postLateFeeWaiver k u a r d => ((postLateFeeWaiver k u a r d).call db).2
  | .reviewWaiver now k u s a n => ((reviewWaiver now k u s a n).call db).2

/-! ## Requests that succeed -/

def Between (fee : LateFee) (amount : Amount) : Prop :=
  ∃ coeff exp, amount = .finite coeff exp ∧ 1 / 100 ≤ decimalValue coeff exp ∧
    100 * decimalValue coeff exp ≤ fee.amountOutstanding

/-- The owner's requests for a waiver of the late fee succeed. -/
def Obtains (db : LateDb) (fee : LateFee) : Prop :=
  ∀ amount reason documents, Between fee amount → ∃ waiver,
    ((requestLateFeeWaiver fee.rentalId fee.userId amount reason documents).call db).1 = .ok waiver

/-- Whenever something is outstanding and no waiver is pending, the owner's requests succeed. -/
def Served (db : LateDb) : Prop :=
  ∀ fee ∈ db.lateFees, 0 < fee.amountOutstanding →
    (¬ ∃ w ∈ db.lateFeeWaivers, w.lateFeeId = fee.id ∧ w.status = .pending) → Obtains db fee

/-- The unique indexes of the late fees and of their waivers, and the foreign key between them. -/
structure Indexed (db : LateDb) : Prop where
  fees : FeeIndex db
  waivers : db.lateFeeWaivers.UniqueOn LateFeeWaiver.lateFeeId
  known : ∀ w ∈ db.lateFeeWaivers, ∃ fee ∈ db.lateFees, fee.id = w.lateFeeId

theorem roundHalfUp_between {x : ℚ} {m : ℤ} (hlow : 1 / 100 ≤ x) (hhigh : 100 * x ≤ m) :
    0 < roundHalfUp x ∧ roundHalfUp x ≤ m := by
  have hnonneg : 0 ≤ x := by linarith
  unfold roundHalfUp
  rw [if_pos hnonneg]
  refine ⟨Int.lt_iff_add_one_le.mpr (Int.le_floor.mpr ?_), Int.lt_add_one_iff.mp ?_⟩
  · push_cast
    linarith
  · refine Int.floor_lt.mpr ?_
    push_cast
    linarith

theorem moneyOf_between {fee : LateFee} {amount : Amount} (h : Between fee amount)
    (hfits : Fits fee.amountOutstanding) :
    ∃ m, moneyOf amount = .ok m ∧ 0 < m ∧ m ≤ fee.amountOutstanding := by
  obtain ⟨coeff, exp, rfl, hlow, hhigh⟩ := h
  obtain ⟨hpositive, hle⟩ := roundHalfUp_between hlow hhigh
  refine ⟨_, ?_, hpositive, hle⟩
  unfold moneyOf Service.toMoney
  dsimp only
  rw [if_pos]
  unfold Fits at hfits ⊢
  omega

theorem between_hundredth {fee : LateFee} (h : 0 < fee.amountOutstanding) :
    Between fee (.ofMoney 1) := by
  have hvalue : decimalValue 1 (-2) = 1 / 100 := by
    unfold decimalValue
    rw [if_neg (by decide), show (- -2 : ℤ).toNat = 2 from rfl]
    norm_num
  have hle : (1 : ℚ) ≤ fee.amountOutstanding := by exact_mod_cast h
  refine ⟨1, -2, rfl, hvalue.ge, ?_⟩
  rw [hvalue]
  linarith

section Requests

variable {db : LateDb} {fee : LateFee}

/-- **The owner's requests** succeed if and only if nobody has asked for a waiver of the late fee
before, and the amount can be handled. -/
theorem obtains_iff (h : Indexed db) (hfee : fee ∈ db.lateFees) (hleft : 0 < fee.amountOutstanding)
    (hidle : ¬ ∃ w ∈ db.lateFeeWaivers, w.lateFeeId = fee.id ∧ w.status = .pending) :
    Obtains db fee ↔
      (¬ ∃ w ∈ db.lateFeeWaivers, w.lateFeeId = fee.id) ∧ Fits fee.amountOutstanding := by
  have hfound : feeOf fee.rentalId db = some fee := h.fees.find?_eq hfee
  constructor
  · intro hobtains
    obtain ⟨waiver, hok⟩ := hobtains (.ofMoney 1) "" none (between_hundredth hleft)
    obtain ⟨t, hrun⟩ := result_ok hok
    unfold requestLateFeeWaiver thenCommit at hrun
    simp only [bind_ok, look_ok, demand_ok, ensure_ok, lift_ok] at hrun
    obtain ⟨_, _, ⟨_, _, ⟨rfl, rfl⟩, other, _, ⟨hother, rfl⟩, _, _, -, outstanding, _,
      ⟨hstored, rfl⟩, _, _, -, _, _, -, _, _, -, _, _, -, _, _, -, _, _, ⟨hnone, rfl⟩, -⟩, -⟩ :=
      hrun
    obtain rfl : fee = other := Option.some.inj (hfound.symm.trans hother)
    exact ⟨hnone, (storedMoney_iff.mp hstored).2⟩
  · rintro ⟨hnone, hfits⟩ amount reason documents hbetween
    obtain ⟨m, hmoney, hpositive, hle⟩ := moneyOf_between hbetween hfits
    let waiver (id : ℕ) : LateFeeWaiver :=
      { id, lateFeeId := fee.id, userId := fee.userId, requestedWaiverAmount := m, reason
        supportingDocuments := documents, status := .pending }
    unfold requestLateFeeWaiver
    rw [call_eq (thenCommit_of_ok (a := waiver db.lateFeeWaivers.freshKey)
      (t := ⟨db, { db with lateFeeWaivers := db.lateFeeWaivers.add waiver }⟩) ?_)]
    · exact ⟨_, rfl⟩
    · rw [look_bind, show (Session.fresh db).working = db from rfl, demand_bind hfound,
        ensure_bind rfl, lift_bind (storedMoney_iff.mpr ⟨rfl, hfits⟩), ensure_bind hleft,
        lift_bind hmoney, ensure_bind hpositive, ensure_bind hle, ensure_bind hidle,
        ensure_bind hnone]
      rfl

end Requests

/-- What is outstanding of the late fee can be waived, or is under review. -/
def Open (waivers : Table LateFeeWaiver) (fee : LateFee) : Prop :=
  0 < fee.amountOutstanding →
    (∀ w ∈ waivers, w.lateFeeId = fee.id → w.status = .pending) ∧
      (Fits fee.amountOutstanding ∨ ∃ w ∈ waivers, w.lateFeeId = fee.id)

theorem served_iff {db : LateDb} (h : Indexed db) :
    Served db ↔ ∀ fee ∈ db.lateFees, Open db.lateFeeWaivers fee := by
  refine forall₂_congr fun fee hfee => forall_congr' fun hleft => ?_
  by_cases hpending : ∃ w ∈ db.lateFeeWaivers, w.lateFeeId = fee.id ∧ w.status = .pending
  · obtain ⟨w, hw, hwfee, hwpending⟩ := hpending
    refine iff_of_true (fun hidle => absurd ⟨w, hw, hwfee, hwpending⟩ hidle) ⟨?_, ?_⟩
    · intro w' hw' hwfee'
      rwa [h.waivers w' hw' w hw (hwfee'.trans hwfee.symm)]
    · exact .inr ⟨w, hw, hwfee⟩
  · have hiff := obtains_iff h hfee hleft hpending
    constructor
    · intro hserved
      obtain ⟨hnone, hfits⟩ := hiff.mp (hserved hpending)
      exact ⟨fun w hw hwfee => absurd ⟨w, hw, hwfee⟩ hnone, .inl hfits⟩
    · rintro ⟨hall, hsome⟩ -
      have hnone : ¬ ∃ w ∈ db.lateFeeWaivers, w.lateFeeId = fee.id := by
        rintro ⟨w, hw, hwfee⟩
        exact hpending ⟨w, hw, hwfee, hall w hw hwfee⟩
      exact hiff.mpr ⟨hnone, hsome.resolve_right hnone⟩

/-! ## What the requests do -/

/-- **What a request does** to the rows, and what it takes for every late fee to stay open. -/
inductive Effect (db db' : LateDb) : Prop → Prop
  | idle (h : rowsOf db' = rowsOf db) : Effect db db' True
  | rewritten {fee : LateFee} (fee' : LateFee) (hfee : fee ∈ db.lateFees) (hid : fee'.id = fee.id)
      (hrental : fee'.rentalId = fee.rentalId)
      (h : rowsOf db' = (db.lateFees.set fee', db.lateFeeWaivers)) :
      Effect db db' (Open db.lateFeeWaivers fee')
  | made (fee : ℕ → LateFee) (hkey : ∀ k, Row.key (fee k) = k) {rentalId : ℕ}
      (hrental : ∀ k, (fee k).rentalId = rentalId) (hnone : feeOf rentalId db = none)
      (h : rowsOf db' = (db.lateFees.add fee hkey, db.lateFeeWaivers)) :
      Effect db db' (0 < (fee db.lateFees.freshKey).amountOutstanding →
        Fits (fee db.lateFees.freshKey).amountOutstanding)
  | requested {fee : LateFee} (waiver : ℕ → LateFeeWaiver) (hkey : ∀ k, Row.key (waiver k) = k)
      (hfee : fee ∈ db.lateFees) (hnone : ¬ ∃ w ∈ db.lateFeeWaivers, w.lateFeeId = fee.id)
      (hwaiver : ∀ k, (waiver k).lateFeeId = fee.id ∧ (waiver k).status = .pending)
      (h : rowsOf db' = (db.lateFees, db.lateFeeWaivers.add waiver hkey)) : Effect db db' True
  | reviewed {fee : LateFee} {waiver : LateFeeWaiver} (fee' : LateFee) (waiver' : LateFeeWaiver)
      (hfee : fee ∈ db.lateFees) (hid : fee'.id = fee.id) (hrental : fee'.rentalId = fee.rentalId)
      (hwaiver : waiver ∈ db.lateFeeWaivers) (hof : waiver.lateFeeId = fee.id)
      (hid' : waiver'.id = waiver.id) (hof' : waiver'.lateFeeId = fee.id)
      (h : rowsOf db' = (db.lateFees.set fee', db.lateFeeWaivers.set waiver')) :
      Effect db db' (0 < fee'.amountOutstanding → waiver'.status = .pending)

section Effect

variable {db db' : LateDb} {P : Prop}

variable {fees : Table LateFee} {waivers : Table LateFeeWaiver}

theorem waivers_of_rows
    (h : rowsOf db = (fees, waivers)) : db.lateFeeWaivers = waivers := congrArg Prod.snd h

variable {fee fee' : LateFee}

theorem exists_set (hid : fee'.id = fee.id) {k : ℕ}
    (hfee : fee ∈ fees) (h : ∃ x ∈ fees, x.id = k) : ∃ x ∈ fees.set fee', x.id = k := by
  obtain ⟨x, hx, rfl⟩ := h
  by_cases hkey : x.id = fee'.id
  · exact ⟨fee', Table.mem_set.mpr (.inr ⟨rfl, fee, hfee, hid.symm⟩), hkey.symm⟩
  · exact ⟨x, Table.mem_set.mpr (.inl ⟨hx, hkey⟩), rfl⟩

theorem indexed_of (h : rowsOf db' = (fees, waivers)) (hfees : fees.UniqueOn LateFee.rentalId)
    (hwaivers : waivers.UniqueOn LateFeeWaiver.lateFeeId)
    (hknown : ∀ w ∈ waivers, ∃ fee ∈ fees, fee.id = w.lateFeeId) : Indexed db' := by
  obtain ⟨rfl, rfl⟩ := Prod.mk.inj h
  exact ⟨hfees, hwaivers, hknown⟩

theorem Effect.indexed (h : Effect db db' P) (hdb : Indexed db) : Indexed db' := by
  cases h with
  | idle h => exact indexed_of h hdb.fees hdb.waivers hdb.known
  | rewritten fee' hfee hid hrental h =>
    refine indexed_of h (hdb.fees.set hfee hid hrental) hdb.waivers fun w hw => ?_
    exact exists_set hid hfee (hdb.known w hw)
  | made fee hkey hrental hnone h =>
    refine indexed_of h (hdb.fees.add fun x hx => ?_) hdb.waivers fun w hw => ?_
    · rw [hrental]
      exact feeOf_none hnone hx
    · obtain ⟨x, hx, hxid⟩ := hdb.known w hw
      exact ⟨x, Table.mem_add.mpr (.inl hx), hxid⟩
  | @requested fee waiver hkey hfee hnone hwaiver h =>
    refine indexed_of h hdb.fees (hdb.waivers.add fun x hx hsame => hnone ⟨x, hx, ?_⟩)
      fun w hw => ?_
    · exact hsame.trans (hwaiver _).1
    · rcases Table.mem_add.mp hw with hw | rfl
      · exact hdb.known w hw
      · exact ⟨fee, hfee, (hwaiver _).1.symm⟩
  | @reviewed fee waiver fee' waiver' hfee hid hrental hwaiver hof hid' hof' h =>
    refine indexed_of h (hdb.fees.set hfee hid hrental)
      (hdb.waivers.set hwaiver hid' (hof'.trans hof.symm)) fun w hw => ?_
    refine exists_set hid hfee ?_
    rcases Table.mem_set.mp hw with ⟨hw, -⟩ | ⟨rfl, -⟩
    · exact hdb.known w hw
    · exact ⟨fee, hfee, hof'.symm⟩

theorem open_set (hfee : fee ∈ fees) (hid : fee'.id = fee.id)
    (hopen : ∀ x ∈ fees, x.id ≠ fee.id → Open waivers x) :
    (∀ x ∈ fees.set fee', Open waivers x) ↔ Open waivers fee' := by
  constructor
  · exact fun hall => hall fee' (Table.mem_set.mpr (.inr ⟨rfl, fee, hfee, hid.symm⟩))
  · intro hfee' x hx
    rcases Table.mem_set.mp hx with ⟨hx, hkey⟩ | ⟨rfl, -⟩
    · exact hopen x hx fun hsame => hkey (hsame.trans hid.symm)
    · exact hfee'

/-- **All late fees are open** after a request if and only if it does what that takes. -/
theorem Effect.open_iff (h : Effect db db' P) (hdb : Indexed db)
    (hopen : ∀ fee ∈ db.lateFees, Open db.lateFeeWaivers fee) :
    (∀ fee ∈ db'.lateFees, Open db'.lateFeeWaivers fee) ↔ P := by
  cases h with
  | idle h =>
    obtain ⟨hfees, hwaivers⟩ := Prod.mk.inj h
    rw [hfees, hwaivers]
    exact iff_of_true hopen trivial
  | rewritten fee' hfee hid hrental h =>
    rw [lateFees_of_rows h, waivers_of_rows h]
    exact open_set hfee hid fun x hx _ => hopen x hx
  | made fee hkey hrental hnone h =>
    rw [lateFees_of_rows h, waivers_of_rows h]
    have hid : (fee db.lateFees.freshKey).id = db.lateFees.freshKey := hkey _
    have hnew : ¬ ∃ w ∈ db.lateFeeWaivers, w.lateFeeId = (fee db.lateFees.freshKey).id := by
      rintro ⟨w, hw, hwfee⟩
      obtain ⟨x, hx, hxid⟩ := hdb.known w hw
      have hlt : x.id < db.lateFees.freshKey := Table.key_lt_freshKey hx
      rw [hxid, hwfee, hid] at hlt
      exact lt_irrefl _ hlt
    constructor
    · intro hall hleft
      exact ((hall _ (Table.mem_add.mpr (.inr rfl))) hleft).2.resolve_right hnew
    · intro hfits x hx
      rcases Table.mem_add.mp hx with hx | rfl
      · exact hopen x hx
      · exact fun hleft => ⟨fun w hw hwfee => absurd ⟨w, hw, hwfee⟩ hnew, .inl (hfits hleft)⟩
  | @requested fee waiver hkey hfee hnone hwaiver h =>
    rw [lateFees_of_rows h, waivers_of_rows h]
    refine iff_of_true (fun x hx hleft => ?_) trivial
    obtain ⟨hall, hsome⟩ := hopen x hx hleft
    refine ⟨fun w hw hwfee => ?_, hsome.imp id ?_⟩
    · rcases Table.mem_add.mp hw with hw | rfl
      · exact hall w hw hwfee
      · exact (hwaiver _).2
    · rintro ⟨w, hw, hwfee⟩
      exact ⟨w, Table.mem_add.mpr (.inl hw), hwfee⟩
  | @reviewed fee waiver fee' waiver' hfee hid hrental hwaiver hof hid' hof' h =>
    rw [lateFees_of_rows h, waivers_of_rows h]
    have hmem : waiver' ∈ db.lateFeeWaivers.set waiver' :=
      Table.mem_set.mpr (.inr ⟨rfl, waiver, hwaiver, hid'.symm⟩)
    have hothers : ∀ x ∈ db.lateFees, x.id ≠ fee.id → Open (db.lateFeeWaivers.set waiver') x := by
      intro x hx hother hleft
      obtain ⟨hall, hsome⟩ := hopen x hx hleft
      refine ⟨fun w hw hwfee => ?_, hsome.imp id ?_⟩
      · rcases Table.mem_set.mp hw with ⟨hw, -⟩ | ⟨rfl, -⟩
        · exact hall w hw hwfee
        · exact absurd (hwfee.symm.trans hof') hother
      · rintro ⟨w, hw, hwfee⟩
        refine ⟨w, Table.mem_set.mpr (.inl ⟨hw, fun hkey => hother ?_⟩), hwfee⟩
        rw [← hwfee, Table.eq_of_key hw hwaiver (hkey.trans hid'), hof]
    rw [open_set hfee hid hothers]
    constructor
    · intro hopen' hleft
      exact (hopen' hleft).1 waiver' hmem (hof'.trans hid.symm)
    · intro hpending hleft
      refine ⟨fun w hw hwfee => ?_, .inr ⟨waiver', hmem, hof'.trans hid.symm⟩⟩
      rcases Table.mem_set.mp hw with ⟨hw, hkey⟩ | ⟨rfl, -⟩
      · obtain rfl := hdb.waivers w hw waiver hwaiver (hwfee.trans (hid.trans hof.symm))
        exact absurd hid'.symm hkey
      · exact hpending hleft

end Effect

/-! ## Every request -/

def ChargeLeaves (db : LateDb) (now rentalId : ℕ) : Prop :=
  ∀ rental ∈ db.fleet.rentals.get? rentalId, 0 < (calculateLateFee now rental).lateFee →
    (∀ fee ∈ feeOf rentalId db,
      Open db.lateFeeWaivers (recharge fee (calculateLateFee now rental))) ∧
    (feeOf rentalId db = none → rental.endTime ≠ none → Fits (calculateLateFee now rental).lateFee)

/-- A review that goes through waives all that is outstanding. -/
def ReviewLeaves (db : LateDb) (waiverId : ℕ) (approve : Bool) (amount : Option Amount) : Prop :=
  ∀ waiver ∈ db.lateFeeWaivers.get? waiverId, waiver.status = .pending →
    ∀ fee ∈ db.lateFees.get? waiver.lateFeeId, 0 < fee.amountOutstanding → approve = true ∧
      ∀ target, moneyOf (amount.getD (.ofMoney waiver.requestedWaiverAmount)) = .ok target →
        0 < target → target ≤ fee.amountOutstanding → Fits fee.amountOutstanding →
          Fits fee.amountWaived → target = fee.amountOutstanding

/-- An administrator's review leaves the waiver pending, or nothing outstanding. -/
def AdminLeaves (db : LateDb) (waiverId : ℕ) (status : ReviewStatus) (amount : Option ℤ) : Prop :=
  ∀ waiver ∈ db.lateFeeWaivers.get? waiverId, ∀ fee ∈ db.lateFees.get? waiver.lateFeeId,
    status ≠ .pending →
      match amount.filter fun _ => status = .approved with
      | some amount => fee.totalLateFee - fee.amountPaid ≤ amount
      | none => fee.amountOutstanding ≤ 0

def Leaves (db : LateDb) : Request → Prop
  | .service (.applyLateFee now k) => ChargeLeaves db now k
  | .service (.reviewLateFeeWaiver _ k _ b a _) => ReviewLeaves db k b a
  | .reviewWaiver _ k _ s a _ => AdminLeaves db k s a
  | _ => True

/-- The request does to the rows what `C` says. -/
def Does (db db' : LateDb) (C : Prop) : Prop := ∃ P, Effect db db' P ∧ (P ↔ C)

theorem Effect.does {db db' : LateDb} {P : Prop} (h : Effect db db' P) : Does db db' P :=
  ⟨P, h, Iff.rfl⟩

theorem does_idle {db db' : LateDb} {C : Prop} (h : rowsOf db' = rowsOf db) (hC : C) :
    Does db db' C := ⟨True, .idle h, iff_of_true trivial hC⟩

theorem does_thenCommit {α : Type} {x : LateTx α} (hx : Atomic x) {db : LateDb} {C : Prop}
    (hC : C) (h : ∀ a t, x (.fresh db) = (.ok a, t) → Does db t.working C) :
    Does db ((thenCommit x).call db).2 C := by
  rcases call_thenCommit hx db with ⟨e, hcall⟩ | ⟨a, t, hrun, hcall⟩
  · rw [hcall]
    exact does_idle rfl hC
  · rw [hcall]
    exact h a t hrun

section

variable {db : LateDb}

theorem does_applyLateFee (now rentalId : ℕ) :
    Does db ((applyLateFee now rentalId).call db).2 (ChargeLeaves db now rentalId) := by
  by_cases hidle : ∀ rental ∈ db.fleet.rentals.get? rentalId,
      (calculateLateFee now rental).lateFee ≤ 0
  · rw [apply_idle hidle]
    refine does_idle rfl fun rental hrental hpositive => ?_
    exact absurd hpositive (not_lt.mpr (hidle rental hrental))
  push Not at hidle
  obtain ⟨rental, hrental, hpositive⟩ := hidle
  obtain rfl : rental.id = rentalId := (Table.get?_eq_some.mp hrental).2
  have hleaves : ChargeLeaves db now rental.id ↔
      (∀ fee ∈ feeOf rental.id db,
        Open db.lateFeeWaivers (recharge fee (calculateLateFee now rental))) ∧
      (feeOf rental.id db = none → rental.endTime ≠ none →
        Fits (calculateLateFee now rental).lateFee) := by
    constructor
    · exact fun h => h rental hrental hpositive
    · intro h other hother _
      obtain rfl := Option.some.inj (hrental.symm.trans hother)
      exact h
  rcases hfee : feeOf rental.id db with _ | fee
  · rcases hend : rental.endTime with _ | endDate
    · rw [apply_raised hrental hpositive (charge_raises hfee hend _)]
      refine does_idle rfl (hleaves.mpr ⟨fun fee h => ?_, fun _ hout => absurd hend hout⟩)
      rw [hfee] at h
      cases h
    · rw [apply_charged hrental hpositive (charge_of_none hfee hend _)]
      refine ⟨_, .made (newLateFee rental endDate (calculateLateFee now rental)) (fun _ => rfl)
        (fun _ => rfl) hfee rfl, ?_⟩
      rw [hleaves, hfee, hend]
      constructor
      · exact fun h => ⟨fun fee hnone => (by cases hnone), fun _ _ => h hpositive⟩
      · exact fun h _ => h.2 rfl (Option.some_ne_none endDate)
  · obtain ⟨hmem, hsame⟩ := feeOf_some hfee
    rw [apply_charged hrental hpositive (charge_of_some hfee _)]
    refine ⟨_, .rewritten (recharge fee (calculateLateFee now rental)) hmem rfl rfl rfl, ?_⟩
    rw [hleaves, hfee]
    constructor
    · intro h
      refine ⟨fun other hother => ?_, fun hnone => by cases hnone⟩
      obtain rfl := Option.some.inj hother
      exact h
    · exact fun h => h.1 fee rfl

theorem does_payLateFee (rentalId : ℕ) :
    Does db ((payLateFee rentalId).call db).2 True := by
  rcases payLateFee_rows rentalId db with h | ⟨fee, hfee, h⟩
  · exact does_idle h trivial
  · refine ⟨_, .rewritten (pay fee) (feeOf_some hfee).1 rfl rfl h, iff_of_true ?_ trivial⟩
    intro hleft
    exact absurd hleft (lt_irrefl 0)

theorem does_requestLateFeeWaiver (rentalId userId : ℕ) (amount : Amount) (reason : String)
    (documents : Option String) :
    Does db ((requestLateFeeWaiver rentalId userId amount reason documents).call db).2 True := by
  rcases requestLateFeeWaiver_rows rentalId userId amount reason documents db with
    h | ⟨fee, hfee, hnone, waiver, hkey, hwaiver, h⟩
  · exact does_idle h trivial
  · exact (Effect.requested waiver hkey (feeOf_some hfee).1 hnone hwaiver h).does

variable {waiver : LateFeeWaiver}

/-- A review leaves nothing outstanding if and only if it waives all of it. -/
theorem reviewed_leaves {approve : Bool} {amount : Option Amount}
    {fee fee' : LateFee} (h : Reviewed waiver approve amount fee fee') :
    fee'.id = fee.id ∧ fee'.rentalId = fee.rentalId ∧
      (fee'.amountOutstanding ≤ 0 ↔ (0 < fee.amountOutstanding → approve = true ∧
        ∀ target, moneyOf (amount.getD (.ofMoney waiver.requestedWaiverAmount)) = .ok target →
          0 < target → target ≤ fee.amountOutstanding → Fits fee.amountOutstanding →
            Fits fee.amountWaived → target = fee.amountOutstanding)) := by
  unfold Reviewed at h
  split_ifs at h with happrove
  · obtain ⟨target, htarget, hpositive, hle, hfits, hfitsWaived, rfl⟩ := h
    refine ⟨rfl, rfl, ?_⟩
    show fee.amountOutstanding - target ≤ 0 ↔ _
    constructor
    · intro hzero _
      refine ⟨happrove, fun other hother _ _ _ _ => ?_⟩
      obtain rfl := Except.ok.inj (htarget.symm.trans hother)
      omega
    · intro hall
      have hsame := (hall (by omega)).2 target htarget hpositive hle hfits hfitsWaived
      omega
  · rw [h]
    refine ⟨rfl, rfl, fun hzero hpositive => absurd hpositive (not_lt.mpr hzero), fun hall => ?_⟩
    exact not_lt.mp fun hpositive => happrove (hall hpositive).1

theorem does_reviewLateFeeWaiver (now waiverId reviewerId : ℕ) (approve : Bool)
    (amount : Option Amount) (notes : Option String) :
    Does db ((reviewLateFeeWaiver now waiverId reviewerId approve amount notes).call db).2
      (ReviewLeaves db waiverId approve amount) := by
  by_cases hgoes : ∃ waiver fee fee', Reviews db waiverId approve amount waiver fee fee'
  · obtain ⟨waiver, fee, fee', hreviews⟩ := hgoes
    obtain ⟨waiver', hid', hof', hclosed, h⟩ := review_goes now reviewerId notes hreviews
    obtain ⟨hwaiver, hpending, hfee, hreviewed⟩ := hreviews
    obtain ⟨hmem, hof⟩ := Table.get?_eq_some.mp hfee
    obtain ⟨hsame, hrental, hleaves⟩ := reviewed_leaves hreviewed
    refine ⟨_, .reviewed fee' waiver' hmem hsame hrental (Table.get?_eq_some.mp hwaiver).1 hof.symm
      hid' (hof'.trans hof.symm) h, ?_⟩
    constructor
    · intro hnone w hw _ f hf hleft
      obtain rfl := Option.some.inj (hwaiver.symm.trans hw)
      obtain rfl := Option.some.inj (hfee.symm.trans hf)
      exact hleaves.mp (not_lt.mp fun hpos => hclosed (hnone hpos)) hleft
    · intro hall hpos
      exact absurd hpos (not_lt.mpr (hleaves.mpr (hall waiver hwaiver hpending fee hfee)))
  · refine does_idle (review_stays now reviewerId notes fun waiver fee fee' h =>
      hgoes ⟨waiver, fee, fee', h⟩) fun waiver hwaiver hpending fee hfee _ => ?_
    have happrove : approve = true := by
      by_contra happrove
      refine hgoes ⟨waiver, fee, fee, hwaiver, hpending, hfee, ?_⟩
      unfold Reviewed
      rw [if_neg happrove]
    refine ⟨happrove, fun target htarget hpositive hle hfits hfitsWaived => absurd ?_ hgoes⟩
    refine ⟨waiver, fee, waive fee fee.amountWaived fee.amountOutstanding target, hwaiver,
      hpending, hfee, ?_⟩
    unfold Reviewed
    rw [if_pos happrove]
    exact ⟨target, htarget, hpositive, hle, hfits, hfitsWaived, rfl⟩

theorem does_postLateFeeWaiver (rentalId userId : ℕ) (amount : ℤ) (reason : String)
    (documents : Option String) :
    Does db ((postLateFeeWaiver rentalId userId amount reason documents).call db).2 True := by
  refine does_thenCommit (Tentative.atomic ?_) trivial fun waiver t h => ?_
  · refine readOnly_look.tentative.bind fun _ => (readOnly_demand _ _).tentative.bind fun _ => ?_
    refine (readOnly_ensure _ _).tentative.bind fun _ => ?_
    refine (readOnly_ensure _ _).tentative.bind fun _ => ?_
    refine (readOnly_ensure _ _).tentative.bind fun _ => ?_
    exact (tentative_update _).bind fun _ => (readOnly_pure _).tentative
  · simp only [bind_ok, look_ok, demand_ok, ensure_ok, update_ok, pure_ok] at h
    obtain ⟨_, _, ⟨rfl, rfl⟩, fee, _, ⟨hfee, rfl⟩, _, _, ⟨-, rfl⟩, _, _, ⟨-, rfl⟩, _, _,
      ⟨hnone, rfl⟩, _, _, rfl, -, rfl⟩ := h
    let waiver (id : ℕ) : LateFeeWaiver :=
      { id, lateFeeId := fee.id, userId, requestedWaiverAmount := amount, reason
        supportingDocuments := documents, status := .pending }
    exact (Effect.requested waiver (fun _ => rfl) (feeOf_some hfee).1 hnone
      (fun _ => ⟨rfl, rfl⟩) rfl).does

/-- The late fee once an administrator has reviewed its waiver. -/
def reviewedFee (fee : LateFee) (status : ReviewStatus) (amount : Option ℤ) : LateFee :=
  match amount.filter fun _ => status = .approved with
  | some amount => settle fee amount
  | none => fee

theorem reviewWaiver_rows {fee : LateFee} (now adminId : ℕ)
    (notes : Option String) {waiverId : ℕ} (status : ReviewStatus) (amount : Option ℤ)
    (hwaiver : db.lateFeeWaivers.get? waiverId = some waiver)
    (hfee : db.lateFees.get? waiver.lateFeeId = some fee) :
    ∃ waiver', waiver'.id = waiver.id ∧ waiver'.lateFeeId = waiver.lateFeeId ∧
      waiver'.status = status ∧
        rowsOf ((reviewWaiver now waiverId adminId status amount notes).call db).2 =
          (db.lateFees.set (reviewedFee fee status amount), db.lateFeeWaivers.set waiver') := by
  unfold reviewWaiver reviewedFee
  rcases hamount : amount.filter fun _ => status = .approved with _ | approved
  · have hself : db.lateFees.set fee = db.lateFees := Table.set_self (Table.get?_eq_some.mp hfee).1
    let waiver' : LateFeeWaiver :=
      { waiver with
        status, adminNotes := notes, reviewedBy := some adminId, reviewedAt := some now }
    dsimp only
    rw [hself]
    refine ⟨waiver', rfl, rfl, rfl, rows_of_run (a := ())
      (t := ⟨db, { db with lateFeeWaivers := db.lateFeeWaivers.set waiver' }⟩) ?_⟩
    rw [look_bind, show (Session.fresh db).working = db from rfl, demand_bind hwaiver]
    rfl
  · let waiver' : LateFeeWaiver :=
      { waiver with
        status, adminNotes := notes, reviewedBy := some adminId, reviewedAt := some now
        approvedWaiverAmount := some approved }
    dsimp only
    refine ⟨waiver', rfl, rfl, rfl, rows_of_run (a := ()) (t := ⟨db,
      { db with
        lateFees := db.lateFees.set (settle fee approved)
        lateFeeWaivers := db.lateFeeWaivers.set waiver' }⟩) ?_⟩
    rw [look_bind, show (Session.fresh db).working = db from rfl, demand_bind hwaiver, hfee]
    rfl

theorem reviewedFee_leaves (fee : LateFee) (status : ReviewStatus) (amount : Option ℤ) :
    (reviewedFee fee status amount).id = fee.id ∧
      (reviewedFee fee status amount).rentalId = fee.rentalId ∧
        ((reviewedFee fee status amount).amountOutstanding ≤ 0 ↔
          match amount.filter fun _ => status = .approved with
          | some amount => fee.totalLateFee - fee.amountPaid ≤ amount
          | none => fee.amountOutstanding ≤ 0) := by
  unfold reviewedFee
  rcases amount.filter fun _ => status = .approved with _ | approved
  · exact ⟨rfl, rfl, Iff.rfl⟩
  · refine ⟨rfl, rfl, ?_⟩
    show max 0 (fee.totalLateFee - fee.amountPaid - approved) ≤ 0 ↔ _
    dsimp only
    omega

theorem does_reviewWaiver (hdb : Indexed db) (now waiverId adminId : ℕ) (status : ReviewStatus)
    (amount : Option ℤ) (notes : Option String) :
    Does db ((reviewWaiver now waiverId adminId status amount notes).call db).2
      (AdminLeaves db waiverId status amount) := by
  rcases hwaiver : db.lateFeeWaivers.get? waiverId with _ | waiver
  · have hraises : ((reviewWaiver now waiverId adminId status amount notes).call db).2 = db := by
      unfold reviewWaiver
      exact congrArg Prod.snd (call_eq (t := .fresh db)
        (bind_of_error ((look_bind _ _).trans (demand_bind_none hwaiver _ _ _))))
    rw [hraises]
    refine does_idle rfl fun waiver hfound => ?_
    rw [hwaiver] at hfound
    cases hfound
  · obtain ⟨hmem, -⟩ := Table.get?_eq_some.mp hwaiver
    obtain ⟨fee, hfee, hid⟩ := hdb.known waiver hmem
    have hfound : db.lateFees.get? waiver.lateFeeId = some fee :=
      Table.get?_eq_some.mpr ⟨hfee, hid⟩
    obtain ⟨waiver', hid', hof', hstatus, h⟩ :=
      reviewWaiver_rows now adminId notes status amount hwaiver hfound
    obtain ⟨hsame, hrental, hleaves⟩ := reviewedFee_leaves fee status amount
    have hreviewed := Effect.reviewed _ waiver' hfee hsame hrental hmem hid.symm hid'
      (hof'.trans hid.symm) h
    refine ⟨_, hreviewed, ?_⟩
    rw [hstatus]
    constructor
    · intro hpending w hw f hf hclosed
      obtain rfl := Option.some.inj (hwaiver.symm.trans hw)
      obtain rfl := Option.some.inj (hfound.symm.trans hf)
      exact hleaves.mp (not_lt.mp fun hpos => hclosed (hpending hpos))
    · intro hall hpos
      by_contra hclosed
      exact absurd hpos (not_lt.mpr (hleaves.mpr (hall waiver hwaiver fee hfound hclosed)))

end

/-! ## Runs -/

section

variable [Casing]

theorem does_serve {db : LateDb} (hdb : Indexed db) (request : Request) :
    Does db (serve db request) (Leaves db request) := by
  cases request with
  | postLateFeeWaiver k u a r d => exact does_postLateFeeWaiver k u a r d
  | reviewWaiver now k u s a n => exact does_reviewWaiver hdb now k u s a n
  | service op =>
    show Does db (step db op) (Leaves db (.service op))
    cases op with
    | applyLateFee now k =>
      rw [step_of_program (x := applyLateFee now k) rfl]
      exact does_applyLateFee now k
    | payLateFee k =>
      rw [step_of_program (x := payLateFee k) rfl]
      exact does_payLateFee k
    | requestLateFeeWaiver k u a r d =>
      rw [step_of_program (x := requestLateFeeWaiver k u a r d) rfl]
      exact does_requestLateFeeWaiver k u a r d
    | reviewLateFeeWaiver now k u b a n =>
      rw [step_of_program (x := reviewLateFeeWaiver now k u b a n) rfl]
      exact does_reviewLateFeeWaiver now k u b a n
    | requestExtension k u t r =>
      rw [step_of_program (x := requestExtension k u t r) rfl]
      exact does_idle (requestExtension_rows k u t r db) trivial
    | reviewExtension now k u b n =>
      rw [step_of_program (x := reviewExtension now k u b n) rfl]
      exact does_idle (reviewExtension_rows now k u b n db) trivial
    | returnBattery now k s =>
      rw [step_of_program (x := onFleet (returnBattery now k s)) rfl]
      exact does_idle rfl trivial

theorem indexed_serve {db : LateDb} (h : Indexed db) (request : Request) :
    Indexed (serve db request) := by
  obtain ⟨P, heffect, -⟩ := does_serve h request
  exact heffect.indexed h

/-- **Waiver requests**: in every state of a run, the owner of a late fee with something outstanding
and no waiver pending gets a waiver requested, if and only if whatever reviews a waiver leaves
nothing outstanding, and so does charging a late fee whose waiver was reviewed. -/
theorem waiver_requests_served (db : LateDb) (hdb : Indexed db) (hserved : Served db)
    (requests : List Request) :
    (∀ p q, requests = p ++ q → Served (run serve db p)) ↔ Along serve Leaves db requests := by
  refine invariant_iff_along_within (J := Indexed) (fun _ request h => indexed_serve h request)
    (fun db request h hopen => ?_) hdb hserved requests
  obtain ⟨P, heffect, hP⟩ := does_serve h request
  rw [served_iff (indexed_serve h request), heffect.open_iff h ((served_iff h).mp hopen), hP]

end

/-! ## An example -/

theorem lateStore_indexed : Indexed lateStore :=
  ⟨Table.UniqueOn.empty, Table.UniqueOn.empty, fun w h => absurd h (Table.not_mem_empty w)⟩

theorem lateStore_served : Served lateStore := fun fee h => absurd h (Table.not_mem_empty fee)

/-- 15 rupees are charged, five of them are asked for, and the request is rejected. -/
def rejectedWaiver : List Request :=
  [.service (.applyLateFee day 1), .service (.requestLateFeeWaiver 1 1 (.ofMoney 500) "late" none),
    .service (.reviewLateFeeWaiver day 1 9 false none none)]

theorem not_served_rejectedWaiver : ¬ Served (run serve lateStore rejectedWaiver) := by
  intro hserved
  have hindexed : Indexed (run serve lateStore rejectedWaiver) :=
    run_invariant (I := Indexed) (fun _ request h => indexed_serve h request) lateStore_indexed
      rejectedWaiver
  have hleft : ∃ fee ∈ (run serve lateStore rejectedWaiver).lateFees, 0 < fee.amountOutstanding ∧
      ∃ w ∈ (run serve lateStore rejectedWaiver).lateFeeWaivers,
        w.lateFeeId = fee.id ∧ w.status ≠ .pending := by
    decide +kernel
  obtain ⟨fee, hfee, hpositive, w, hw, hwfee, hclosed⟩ := hleft
  exact hclosed (((served_iff hindexed).mp hserved fee hfee hpositive).1 w hw hwfee)

theorem waiver_requests_served_sample : ¬ Along serve Leaves lateStore rejectedWaiver := by
  intro hleaves
  have hserved := (waiver_requests_served lateStore lateStore_indexed lateStore_served
    rejectedWaiver).mpr hleaves
  exact not_served_rejectedWaiver (hserved rejectedWaiver [] (List.append_nil _).symm)

/-- After the rejection nothing can be asked for. -/
theorem rejected_waiver_unserved : ¬ ∀ (db : LateDb), Indexed db → Served db →
    ∀ requests, Served (run serve db requests) := by
  intro hclaim
  exact not_served_rejectedWaiver
    (hclaim lateStore lateStore_indexed lateStore_served rejectedWaiver)

end WezuBackend.Rental.Waivers
