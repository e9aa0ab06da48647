import WezuBackend.Rental.LateFees
import WezuBackend.Rental.Effects
import WezuBackend.Wallet.Effects
import WezuBackend.Lib.Runs

/-!
# The balance of a late fee

Paying and waiving move an amount from what is outstanding to what is paid or waived, and close the
late fee when nothing is left (`balanced_pay`, `balanced_waive`).  Charging again replaces the total
and takes what is left for outstanding, whatever the status is.  So the balance survives it if and
only if the new fee covers what has been paid and waived, exactly if the late fee is closed
(`balanced_recharge`).
-/

namespace WezuBackend.Rental.LateFeeBalance

open Lib.Tables Lib.Atomicity Lib.Atomicity.Tx Lib.Runs Core.Base Core.Amounts Core.Letters
open Fleet.Model Rental.Service Rental.LateFees

/-! ## The amounts of one row -/

def Closed (fee : LateFee) : Prop := fee.paymentStatus = .paid ∨ fee.paymentStatus = .waived

/-- The amounts add up, and nothing is outstanding of a closed late fee. -/
structure Balanced (fee : LateFee) : Prop where
  total : fee.totalLateFee = fee.amountPaid + fee.amountWaived + fee.amountOutstanding
  outstanding : 0 ≤ fee.amountOutstanding
  closed : Closed fee → fee.amountOutstanding = 0

variable {fee : LateFee}

theorem balanced_pay (h : Balanced fee) : Balanced (pay fee) := by
  refine ⟨?_, le_rfl, fun _ => rfl⟩
  show fee.totalLateFee = fee.amountPaid + fee.amountOutstanding + fee.amountWaived + 0
  have htotal := h.total
  omega

theorem balanced_waive (h : Balanced fee) {amount : ℤ}
    (hamount : amount ≤ fee.amountOutstanding) :
    Balanced (waive fee fee.amountWaived fee.amountOutstanding amount) := by
  have htotal := h.total
  refine ⟨?_, ?_, ?_⟩
  · show fee.totalLateFee = fee.amountPaid + (fee.amountWaived + amount) +
      (fee.amountOutstanding - amount)
    omega
  · show 0 ≤ fee.amountOutstanding - amount
    omega
  · intro hclosed
    show fee.amountOutstanding - amount = 0
    by_contra hleft
    rcases hclosed with hpaid | hwaived
    · rw [waive, if_neg hleft] at hpaid
      cases hpaid
    · rw [waive, if_neg hleft] at hwaived
      cases hwaived

theorem balanced_recharge (fee : LateFee) (details : FeeDetails) :
    Balanced (recharge fee details) ↔ fee.amountPaid + fee.amountWaived ≤ details.lateFee ∧
      (Closed fee → details.lateFee = fee.amountPaid + fee.amountWaived) := by
  have hleft : (recharge fee details).amountOutstanding =
      details.lateFee - fee.amountPaid - fee.amountWaived := rfl
  constructor
  · rintro ⟨-, houtstanding, hclosed⟩
    rw [hleft] at houtstanding hclosed
    refine ⟨by omega, fun h => ?_⟩
    have hzero := hclosed h
    omega
  · rintro ⟨hle, heq⟩
    refine ⟨?_, ?_, fun h => ?_⟩
    · show details.lateFee = fee.amountPaid + fee.amountWaived +
        (details.lateFee - fee.amountPaid - fee.amountWaived)
      omega
    · rw [hleft]
      omega
    · have hsettled := heq h
      rw [hleft]
      omega

theorem balanced_new (rental : Rental) (endDate : ℕ) {details : FeeDetails}
    (h : 0 < details.lateFee) (k : ℕ) : Balanced (newLateFee rental endDate details k) := by
  refine ⟨?_, h.le, ?_⟩
  · show details.lateFee = 0 + 0 + details.lateFee
    omega
  · rintro (h | h) <;> cases h

/-! ## Stored amounts -/

theorem floor_add_half (n : ℤ) : ⌊(n : ℚ) + 1 / 2⌋ = n := by
  rw [Int.floor_intCast_add]
  norm_num

theorem roundHalfUp_stored (m : ℤ) : roundHalfUp (decimalValue m (-2)) = m := by
  have hvalue : (100 : ℚ) * decimalValue m (-2) = m := by
    unfold decimalValue
    rw [if_neg (by decide), show (- -2 : ℤ).toNat = 2 from rfl]
    norm_num
    ring
  unfold roundHalfUp
  split_ifs
  · rw [hvalue]
    exact floor_add_half m
  · rw [mul_neg, hvalue, ← Int.cast_neg, floor_add_half]
    omega

/-- A stored amount reads back as it is, unless it has too many digits. -/
theorem storedMoney_iff {m v : ℤ} : storedMoney m = .ok v ↔ v = m ∧ Fits m := by
  unfold storedMoney moneyOf Amount.ofMoney Service.toMoney
  dsimp only
  rw [roundHalfUp_stored]
  split_ifs with hfits
  · exact ⟨fun h => ⟨(Except.ok.inj h).symm, hfits⟩, fun h => congrArg Except.ok h.1.symm⟩
  · exact ⟨fun h => (by cases h), fun h => absurd h.2 hfits⟩

/-! ## The rows of the store -/

def AllBalanced (db : LateDb) : Prop := ∀ fee ∈ db.lateFees, Balanced fee

theorem balanced_of_lateFees {db db' : LateDb} (h : db'.lateFees = db.lateFees)
    (hdb : AllBalanced db) : AllBalanced db' := by
  unfold AllBalanced
  rw [h]
  exact hdb

variable {db : LateDb}

theorem balanced_set (hdb : AllBalanced db) (h : Balanced fee) :
    ∀ x ∈ db.lateFees.set fee, Balanced x := by
  intro x hx
  rcases Table.mem_set.mp hx with ⟨hx, -⟩ | ⟨rfl, -⟩
  · exact hdb x hx
  · exact h

/-! ## What the operations write -/

def rowsOf (db : LateDb) : Table LateFee × Table LateFeeWaiver := (db.lateFees, db.lateFeeWaivers)

/-- What holds of the rows before, and of the rows that a program leaves before its commit. -/
theorem rows_thenCommit {α : Type} {x : LateTx α} (hx : Atomic x)
    {P : Table LateFee × Table LateFeeWaiver → Prop} (hdb : P (rowsOf db))
    (h : ∀ a t, x (.fresh db) = (.ok a, t) → P (rowsOf t.working)) :
    P (rowsOf ((thenCommit x).call db).2) := by
  rcases call_thenCommit hx db with ⟨e, hcall⟩ | ⟨a, t, hrun, hcall⟩
  · rw [hcall]
    exact hdb
  · rw [hcall]
    exact h a t hrun

variable {t : Session LateDb}

theorem rows_of_run {α : Type} {x : LateTx α} {a : α} (h : x (.fresh db) = (.ok a, t)) :
    rowsOf ((thenCommit x).call db).2 = rowsOf t.working := by
  rw [call_eq (thenCommit_of_ok h)]

theorem call_of_fixes {α γ : Type} {f : LateDb → γ} {x : LateTx α} (hx : Fixes f x) (db : LateDb) :
    f ((thenCommit x).call db).2 = f db := by
  rcases call_thenCommit hx.tentative.atomic db with ⟨e, hcall⟩ | ⟨a, t, hrun, hcall⟩
  · rw [hcall]
  · rw [hcall]
    exact (hx.eq hrun).2

theorem onWallet_rows {α : Type} {x : Wallet.Service.WalletTx α} {s t : Session LateDb}
    {r : Except Exc α} (h : onWallet x s = (r, t)) : rowsOf t.working = rowsOf s.working := by
  obtain ⟨-, rfl⟩ := Prod.mk.inj h
  rfl

theorem atomic_onWallet {α : Type} {x : Wallet.Service.WalletTx α} (hx : Atomic x) :
    Atomic (onWallet x) := by
  intro s e t h
  rcases hrun : x ⟨s.committed.wallet, s.working.wallet⟩ with ⟨e' | a, u⟩
  · have hsame : u.committed = s.committed.wallet := hx _ _ _ hrun
    rw [onWallet, focus_eq _ _ hrun] at h
    obtain ⟨-, rfl⟩ := Prod.mk.inj h
    show { s.committed with wallet := u.committed } = s.committed
    rw [hsame]
  · rw [onWallet, focus_eq _ _ hrun] at h
    cases h

theorem payLateFee_rows (rentalId : ℕ) (db : LateDb) :
    rowsOf ((payLateFee rentalId).call db).2 = rowsOf db ∨ ∃ fee, feeOf rentalId db = some fee ∧
      rowsOf ((payLateFee rentalId).call db).2 =
        (db.lateFees.set (pay fee), db.lateFeeWaivers) := by
  unfold payLateFee
  refine rows_thenCommit ?_ (P := fun rows => rows = rowsOf db ∨ ∃ fee,
    feeOf rentalId db = some fee ∧ rows = (db.lateFees.set (pay fee), db.lateFeeWaivers))
    (.inl rfl) fun paid t h => ?_
  · refine atomic_bind readOnly_look.tentative fun db => ?_
    split
    · exact (readOnly_pure false).tentative.atomic
    · refine atomic_bind (tentative_update _) fun _ s e t h => ?_
      rcases Tx.bind_error.mp h with h | ⟨_, u, -, h⟩
      · exact atomic_onWallet Wallet.Effects.atomic_deductBalance s e t h
      · cases h
  · rw [bind_ok] at h
    obtain ⟨_, _, hlook, h⟩ := h
    obtain ⟨rfl, rfl⟩ := look_ok.mp hlook
    rcases hfee : (feeOf rentalId (Session.fresh db).working).filter
      fun fee => 0 < fee.amountOutstanding with _ | fee
    · rw [hfee] at h
      obtain ⟨-, rfl⟩ := pure_ok.mp h
      exact .inl rfl
    · rw [hfee] at h
      dsimp only at h
      simp only [bind_ok] at h
      obtain ⟨_, s₁, hsave, _, s₂, hdeduct, h⟩ := h
      obtain ⟨-, rfl⟩ := pure_ok.mp h
      obtain rfl := update_ok.mp hsave
      exact .inr ⟨fee, (Option.filter_eq_some_iff.mp hfee).1, onWallet_rows hdeduct⟩

/-- What a review that goes through makes of the late fee. -/
def Reviewed (waiver : LateFeeWaiver) (approve : Bool) (amount : Option Amount)
    (fee fee' : LateFee) : Prop :=
  if approve then
    ∃ target, moneyOf (amount.getD (.ofMoney waiver.requestedWaiverAmount)) = .ok target ∧
      0 < target ∧ target ≤ fee.amountOutstanding ∧ Fits fee.amountOutstanding ∧
        Fits fee.amountWaived ∧ fee' = waive fee fee.amountWaived fee.amountOutstanding target
  else fee' = fee

def Reviews (db : LateDb) (waiverId : ℕ) (approve : Bool) (amount : Option Amount)
    (waiver : LateFeeWaiver) (fee fee' : LateFee) : Prop :=
  db.lateFeeWaivers.get? waiverId = some waiver ∧ waiver.status = .pending ∧
    db.lateFees.get? waiver.lateFeeId = some fee ∧ Reviewed waiver approve amount fee fee'

variable {waiver : LateFeeWaiver}

section Reviews

variable (now reviewerId : ℕ) (notes : Option String) {waiverId : ℕ} {approve : Bool}
  {amount : Option Amount} {db : LateDb}

theorem review_goes {fee fee' : LateFee} (h : Reviews db waiverId approve amount waiver fee fee') :
    ∃ waiver', waiver'.id = waiver.id ∧ waiver'.lateFeeId = waiver.lateFeeId ∧
      waiver'.status ≠ .pending ∧
      rowsOf ((reviewLateFeeWaiver now waiverId reviewerId approve amount notes).call db).2 =
        (db.lateFees.set fee', db.lateFeeWaivers.set waiver') := by
  obtain ⟨hwaiver, hpending, hfee, hreviewed⟩ := h
  unfold reviewLateFeeWaiver
  rcases approve with _ | _
  · obtain rfl : fee' = fee := hreviewed
    have hself : db.lateFees.set fee' = db.lateFees :=
      Table.set_self (Table.get?_eq_some.mp hfee).1
    rw [hself]
    let waiver' : LateFeeWaiver :=
      { waiver with
        status := .rejected, reviewedBy := some reviewerId, reviewedAt := some now
        adminNotes := notes
        rejectionReason := some ((truthy notes).getD "Waiver request rejected") }
    refine ⟨waiver', rfl, rfl, by simp [waiver'], rows_of_run (a := waiver')
      (t := ⟨db, { db with lateFeeWaivers := db.lateFeeWaivers.set waiver' }⟩) ?_⟩
    rw [look_bind, show (Session.fresh db).working = db from rfl, demand_bind hwaiver,
      ensure_bind hpending, demand_bind hfee]
    rfl
  · obtain ⟨target, htarget, hpositive, hle, hfits, hfitsWaived, rfl⟩ := hreviewed
    let waiver' : LateFeeWaiver :=
      { waiver with
        status := .approved, reviewedBy := some reviewerId, reviewedAt := some now
        adminNotes := notes, approvedWaiverAmount := some target }
    refine ⟨waiver', rfl, rfl, by simp [waiver'], rows_of_run (a := waiver') (t := ⟨db,
      { db with
        lateFees :=
          db.lateFees.set (waive fee fee.amountWaived fee.amountOutstanding target)
        lateFeeWaivers := db.lateFeeWaivers.set waiver' }⟩) ?_⟩
    rw [look_bind, show (Session.fresh db).working = db from rfl, demand_bind hwaiver,
      ensure_bind hpending, demand_bind hfee]
    dsimp only
    rw [if_pos rfl, lift_bind htarget, ensure_bind hpositive,
      lift_bind (storedMoney_iff.mpr ⟨rfl, hfits⟩), ensure_bind hle,
      lift_bind (storedMoney_iff.mpr ⟨rfl, hfitsWaived⟩)]
    rfl

theorem review_stays (h : ∀ waiver fee fee', ¬ Reviews db waiverId approve amount waiver fee fee') :
    rowsOf ((reviewLateFeeWaiver now waiverId reviewerId approve amount notes).call db).2 =
      rowsOf db := by
  unfold reviewLateFeeWaiver
  refine rows_thenCommit (Tentative.atomic ?_) (P := fun rows => rows = rowsOf db) rfl
    fun waiver t hrun => ?_
  · refine readOnly_look.tentative.bind fun _ => (readOnly_demand _ _).tentative.bind fun _ => ?_
    refine (readOnly_ensure _ _).tentative.bind fun _ => ?_
    refine (readOnly_demand _ _).tentative.bind fun _ => ?_
    dsimp only
    split_ifs
    · refine (readOnly_lift _).tentative.bind fun _ =>
        (readOnly_ensure _ _).tentative.bind fun _ => ?_
      refine (readOnly_lift _).tentative.bind fun _ =>
        (readOnly_ensure _ _).tentative.bind fun _ => ?_
      refine (readOnly_lift _).tentative.bind fun _ => (tentative_update _).bind fun _ => ?_
      exact (tentative_update _).bind fun _ => (readOnly_pure _).tentative
    · exact (tentative_update _).bind fun _ => (readOnly_pure _).tentative
  · simp only [bind_ok, look_ok, demand_ok, ensure_ok] at hrun
    obtain ⟨_, _, ⟨rfl, rfl⟩, found, _, ⟨hwaiver, rfl⟩, _, _, ⟨hpending, rfl⟩, fee, _,
      ⟨hfee, rfl⟩, hrun⟩ := hrun
    exfalso
    unfold Reviews Reviewed at h
    split_ifs at hrun with happrove
    · simp only [bind_ok, lift_ok, ensure_ok] at hrun
      obtain ⟨target, _, ⟨htarget, rfl⟩, _, _, ⟨hpositive, rfl⟩, outstanding, _,
        ⟨hstored, rfl⟩, _, _, ⟨hle, rfl⟩, waived, _, ⟨hwaived, rfl⟩, -⟩ := hrun
      obtain ⟨rfl, hfits⟩ := storedMoney_iff.mp hstored
      obtain ⟨rfl, hfitsWaived⟩ := storedMoney_iff.mp hwaived
      refine h found fee (waive fee fee.amountWaived fee.amountOutstanding target)
        ⟨hwaiver, hpending, hfee, ?_⟩
      rw [if_pos happrove]
      exact ⟨target, htarget, hpositive, hle, hfits, hfitsWaived, rfl⟩
    · refine h found fee fee ⟨hwaiver, hpending, hfee, ?_⟩
      rw [if_neg happrove]

end Reviews

theorem fixes_onFleet {α : Type} {x : FleetTx α} (hx : Tentative x) :
    Fixes rowsOf (onFleet x) := by
  intro s
  rcases h : x ⟨s.committed.fleet, s.working.fleet⟩ with ⟨r, t⟩
  have hcommitted : t.committed = s.committed.fleet := hx.eq h
  have hrun : onFleet x s = (r, ⟨{ s.committed with fleet := t.committed },
    { s.working with fleet := t.working }⟩) := focus_eq _ _ h
  rw [hrun, hcommitted]
  exact ⟨rfl, rfl⟩

theorem fixes_extensions {rows : LateDb → Table RentalExtension} :
    Fixes rowsOf (update fun db => { db with rentalExtensions := rows db } : LateTx Unit) :=
  fixes_update fun _ => rfl

theorem requestExtension_rows (rentalId userId requestedEndDate : ℕ) (reason : Option String)
    (db : LateDb) :
    rowsOf ((requestExtension rentalId userId requestedEndDate reason).call db).2 =
      rowsOf db := by
  refine call_of_fixes ?_ db
  refine readOnly_look.fixes.bind fun _ => (readOnly_demand _ _).fixes.bind fun _ => ?_
  refine (readOnly_ensure _ _).fixes.bind fun _ => (readOnly_demand _ _).fixes.bind fun _ => ?_
  refine (readOnly_ensure _ _).fixes.bind fun _ => (readOnly_ensure _ _).fixes.bind fun _ => ?_
  refine (readOnly_lift _).fixes.bind fun _ => (readOnly_lift _).fixes.bind fun _ => ?_
  refine fixes_extensions.bind fun _ => ?_
  exact (fixes_onFleet (tentative_update _)).bind fun _ => (readOnly_pure _).fixes

theorem reviewExtension_rows (now extensionId reviewerId : ℕ) (approve : Bool)
    (notes : Option String) (db : LateDb) :
    rowsOf ((reviewExtension now extensionId reviewerId approve notes).call db).2 = rowsOf db := by
  refine call_of_fixes ?_ db
  refine readOnly_look.fixes.bind fun _ => (readOnly_demand _ _).fixes.bind fun _ => ?_
  refine (readOnly_ensure _ _).fixes.bind fun _ => (readOnly_demand _ _).fixes.bind fun _ => ?_
  refine (fixes_onFleet (tentative_update _)).bind fun _ => ?_
  refine (fixes_onFleet (tentative_update _)).bind fun _ => ?_
  exact fixes_extensions.bind fun _ => (readOnly_pure _).fixes

theorem requestLateFeeWaiver_rows (rentalId userId : ℕ) (amount : Amount) (reason : String)
    (documents : Option String) (db : LateDb) :
    rowsOf ((requestLateFeeWaiver rentalId userId amount reason documents).call db).2 = rowsOf db ∨
      ∃ fee, feeOf rentalId db = some fee ∧ (¬ ∃ w ∈ db.lateFeeWaivers, w.lateFeeId = fee.id) ∧
        ∃ (waiver : ℕ → LateFeeWaiver) (hkey : ∀ k, Row.key (waiver k) = k),
          (∀ k, (waiver k).lateFeeId = fee.id ∧ (waiver k).status = .pending) ∧
            rowsOf ((requestLateFeeWaiver rentalId userId amount reason documents).call db).2 =
              (db.lateFees, db.lateFeeWaivers.add waiver hkey) := by
  unfold requestLateFeeWaiver
  refine rows_thenCommit (Tentative.atomic ?_) (P := fun rows => rows = rowsOf db ∨ ∃ fee,
    feeOf rentalId db = some fee ∧ (¬ ∃ w ∈ db.lateFeeWaivers, w.lateFeeId = fee.id) ∧
      ∃ (waiver : ℕ → LateFeeWaiver) (hkey : ∀ k, Row.key (waiver k) = k),
        (∀ k, (waiver k).lateFeeId = fee.id ∧ (waiver k).status = .pending) ∧
          rows = (db.lateFees, db.lateFeeWaivers.add waiver hkey)) (.inl rfl) fun waiver t h => ?_
  · refine readOnly_look.tentative.bind fun _ => (readOnly_demand _ _).tentative.bind fun _ => ?_
    refine (readOnly_ensure _ _).tentative.bind fun _ => ?_
    refine (readOnly_lift _).tentative.bind fun _ => ?_
    refine (readOnly_ensure _ _).tentative.bind fun _ => ?_
    refine (readOnly_lift _).tentative.bind fun _ => ?_
    refine (readOnly_ensure _ _).tentative.bind fun _ => ?_
    refine (readOnly_ensure _ _).tentative.bind fun _ => ?_
    refine (readOnly_ensure _ _).tentative.bind fun _ => ?_
    refine (readOnly_ensure _ _).tentative.bind fun _ => ?_
    exact (tentative_update _).bind fun _ => (readOnly_pure _).tentative
  · simp only [bind_ok, look_ok, demand_ok, ensure_ok, lift_ok, update_ok, pure_ok] at h
    obtain ⟨_, _, ⟨rfl, rfl⟩, fee, _, ⟨hfee, rfl⟩, _, _, ⟨-, rfl⟩, _, _, ⟨-, rfl⟩, _, _, ⟨-, rfl⟩,
      requested, _, ⟨-, rfl⟩, _, _, ⟨-, rfl⟩, _, _, ⟨-, rfl⟩, _, _, ⟨-, rfl⟩, _, _,
      ⟨hnone, rfl⟩, _, _, rfl, -, rfl⟩ := h
    refine .inr ⟨fee, hfee, hnone, fun id => ?_, ?_, ?_, ?_⟩
    · exact { id, lateFeeId := fee.id, userId, requestedWaiverAmount := requested, reason
              supportingDocuments := documents, status := .pending }
    · exact fun _ => rfl
    · exact fun _ => ⟨rfl, rfl⟩
    · rfl

/-! ## Payments, waivers, extensions and returns -/

variable {waivers : Table LateFeeWaiver}

theorem lateFees_of_rows {fees : Table LateFee}
    (h : rowsOf db = (fees, waivers)) : db.lateFees = fees := congrArg Prod.fst h

theorem balanced_of_rows {db db' : LateDb} (h : rowsOf db' = rowsOf db) (hdb : AllBalanced db) :
    AllBalanced db' := balanced_of_lateFees (lateFees_of_rows h) hdb

theorem balanced_of_set {db db' : LateDb}
    (h : rowsOf db' = (db.lateFees.set fee, waivers)) (hdb : AllBalanced db) (hfee : Balanced fee) :
    AllBalanced db' := by
  unfold AllBalanced
  rw [lateFees_of_rows h]
  exact balanced_set hdb hfee

theorem balanced_payLateFee (hdb : AllBalanced db) (rentalId : ℕ) :
    AllBalanced ((payLateFee rentalId).call db).2 := by
  rcases payLateFee_rows rentalId db with h | ⟨fee, hfee, h⟩
  · exact balanced_of_rows h hdb
  · exact balanced_of_set h hdb (balanced_pay (hdb fee (Table.find?_mem hfee)))

theorem balanced_reviewed {approve : Bool} {amount : Option Amount}
    {fee fee' : LateFee} (hfee : Balanced fee) (h : Reviewed waiver approve amount fee fee') :
    Balanced fee' := by
  unfold Reviewed at h
  split_ifs at h
  · obtain ⟨target, -, -, hle, -, -, rfl⟩ := h
    exact balanced_waive hfee hle
  · rw [h]
    exact hfee

theorem balanced_reviewLateFeeWaiver (hdb : AllBalanced db)
    (now waiverId reviewerId : ℕ) (approve : Bool) (amount : Option Amount)
    (notes : Option String) :
    AllBalanced ((reviewLateFeeWaiver now waiverId reviewerId approve amount notes).call db).2 := by
  by_cases hgoes : ∃ waiver fee fee', Reviews db waiverId approve amount waiver fee fee'
  · obtain ⟨waiver, fee, fee', hreviews⟩ := hgoes
    obtain ⟨-, -, hfee, hreviewed⟩ := id hreviews
    obtain ⟨waiver', -, -, -, h⟩ := review_goes now reviewerId notes hreviews
    exact balanced_of_set h hdb
      (balanced_reviewed (hdb fee (Table.get?_eq_some.mp hfee).1) hreviewed)
  · exact balanced_of_rows
      (review_stays now reviewerId notes fun waiver fee fee' h => hgoes ⟨waiver, fee, fee', h⟩) hdb

theorem balanced_requestLateFeeWaiver (hdb : AllBalanced db) (rentalId userId : ℕ)
    (amount : Amount) (reason : String) (documents : Option String) :
    AllBalanced ((requestLateFeeWaiver rentalId userId amount reason documents).call db).2 := by
  rcases requestLateFeeWaiver_rows rentalId userId amount reason documents db with
    h | ⟨fee, -, -, waiver, hkey, -, h⟩
  · exact balanced_of_rows h hdb
  · exact balanced_of_lateFees (lateFees_of_rows h) hdb

/-! ## Charging -/

variable {rental : Rental}

theorem charge_of_some (hfee : feeOf rental.id db = some fee) (details : FeeDetails) :
    chargeLateFee rental details (.fresh db) = (.ok (recharge fee details),
      ⟨db, { db with lateFees := db.lateFees.set (recharge fee details) }⟩) := by
  unfold chargeLateFee
  rw [look_bind, show (Session.fresh db).working = db from rfl, hfee]
  rfl

theorem charge_of_none (hfee : feeOf rental.id db = none)
    {endDate : ℕ} (hend : rental.endTime = some endDate) (details : FeeDetails) :
    chargeLateFee rental details (.fresh db) =
      (.ok (newLateFee rental endDate details db.lateFees.freshKey),
        ⟨db, { db with lateFees := db.lateFees.add (newLateFee rental endDate details) }⟩) := by
  unfold chargeLateFee
  rw [look_bind, show (Session.fresh db).working = db from rfl, hfee, hend]
  rfl

theorem charge_raises (hfee : feeOf rental.id db = none)
    (hend : rental.endTime = none) (details : FeeDetails) :
    chargeLateFee rental details (.fresh db) = (.error .integrityError, .fresh db) := by
  unfold chargeLateFee
  rw [look_bind, show (Session.fresh db).working = db from rfl, hfee, hend]
  rfl

theorem chargeRental_eq {now : ℕ} (hrental : db.fleet.rentals.get? rental.id = some rental)
    (hpositive : 0 < (calculateLateFee now rental).lateFee) :
    chargeRental now rental.id (.fresh db) =
      (thenCommit (chargeLateFee rental (calculateLateFee now rental)) >>= fun fee =>
        pure (some fee)) (.fresh db) := by
  unfold chargeRental
  rw [look_bind, show (Session.fresh db).working = db from rfl, hrental]
  dsimp only
  rw [if_neg (not_le.mpr hpositive)]

theorem apply_charged {now : ℕ} (hrental : db.fleet.rentals.get? rental.id = some rental)
    (hpositive : 0 < (calculateLateFee now rental).lateFee)
    (h : chargeLateFee rental (calculateLateFee now rental) (.fresh db) = (.ok fee, t)) :
    (applyLateFee now rental.id).call db = (.ok (some fee), t.working) :=
  call_eq (handle_of_ok ((chargeRental_eq hrental hpositive).trans
    (bind_of_ok (thenCommit_of_ok h))))

/-- **A late fee that cannot be stored** is dropped without a word. -/
theorem apply_raised {now : ℕ} (hrental : db.fleet.rentals.get? rental.id = some rental)
    (hpositive : 0 < (calculateLateFee now rental).lateFee) {e : Exc}
    (h : chargeLateFee rental (calculateLateFee now rental) (.fresh db) = (.error e, .fresh db)) :
    (applyLateFee now rental.id).call db = (.ok none, db) := by
  have hraises : chargeRental now rental.id (.fresh db) = (.error e, .fresh db) :=
    (chargeRental_eq hrental hpositive).trans (bind_of_error (bind_of_error h))
  rw [applyLateFee, call_eq ((handle_of_error hraises).trans rfl)]
  rfl

/-- A rental that there is none of, or whose late fee is not positive. -/
theorem apply_idle {now rentalId : ℕ}
    (h : ∀ rental ∈ db.fleet.rentals.get? rentalId, (calculateLateFee now rental).lateFee ≤ 0) :
    (applyLateFee now rentalId).call db = (.ok none, db) := by
  have hrun : chargeRental now rentalId (.fresh db) = (.ok none, .fresh db) := by
    unfold chargeRental
    rw [look_bind, show (Session.fresh db).working = db from rfl]
    rcases hrental : db.fleet.rentals.get? rentalId with _ | rental
    · rfl
    · dsimp only
      rw [if_pos (h rental hrental)]
      rfl
  exact call_eq (handle_of_ok hrun)

/-- **What `apply_late_fee` does**: nothing, or it charges the late fee of the rental again, or it
makes one. -/
theorem applyLateFee_cases (now rentalId : ℕ) (db : LateDb) :
    (((applyLateFee now rentalId).call db).2 = db ∧
      ∀ rental ∈ db.fleet.rentals.get? rentalId, ∀ fee ∈ feeOf rentalId db,
        (calculateLateFee now rental).lateFee ≤ 0) ∨
    ∃ rental, db.fleet.rentals.get? rentalId = some rental ∧
      0 < (calculateLateFee now rental).lateFee ∧
      ((∃ fee, feeOf rentalId db = some fee ∧ ((applyLateFee now rentalId).call db).2.lateFees =
          db.lateFees.set (recharge fee (calculateLateFee now rental))) ∨
        ∃ endDate, feeOf rentalId db = none ∧ ((applyLateFee now rentalId).call db).2.lateFees =
          db.lateFees.add (newLateFee rental endDate (calculateLateFee now rental))) := by
  by_cases hidle : ∀ rental ∈ db.fleet.rentals.get? rentalId,
      (calculateLateFee now rental).lateFee ≤ 0
  · rw [apply_idle hidle]
    exact .inl ⟨rfl, fun rental hrental _ _ => hidle rental hrental⟩
  push Not at hidle
  obtain ⟨rental, hrental, hpositive⟩ := hidle
  obtain rfl : rental.id = rentalId := (Table.get?_eq_some.mp hrental).2
  rcases hfee : feeOf rental.id db with _ | fee
  · rcases hend : rental.endTime with _ | endDate
    · rw [apply_raised hrental hpositive (charge_raises hfee hend _)]
      exact .inl ⟨rfl, fun _ _ fee h => by cases h⟩
    · rw [apply_charged hrental hpositive (charge_of_none hfee hend _)]
      exact .inr ⟨rental, hrental, hpositive, .inr ⟨endDate, rfl, rfl⟩⟩
  · rw [apply_charged hrental hpositive (charge_of_some hfee _)]
    exact .inr ⟨rental, hrental, hpositive, .inl ⟨fee, rfl, rfl⟩⟩

/-- When `apply_late_fee` finds a late fee to charge again, the new fee covers what was paid and
waived, and is just that if the late fee is closed. -/
def Covered (db : LateDb) : Op → Prop
  | .applyLateFee now rentalId =>
    ∀ rental ∈ db.fleet.rentals.get? rentalId, ∀ fee ∈ feeOf rentalId db,
      0 < (calculateLateFee now rental).lateFee →
        fee.amountPaid + fee.amountWaived ≤ (calculateLateFee now rental).lateFee ∧
          (Closed fee → (calculateLateFee now rental).lateFee = fee.amountPaid + fee.amountWaived)
  | _ => True

theorem balanced_applyLateFee (hdb : AllBalanced db) (now rentalId : ℕ) :
    AllBalanced ((applyLateFee now rentalId).call db).2 ↔
      Covered db (.applyLateFee now rentalId) := by
  rcases applyLateFee_cases now rentalId db with ⟨hsame, hnone⟩ |
    ⟨rental, hrental, hpositive, ⟨fee, hfee, hrows⟩ | ⟨endDate, hfee, hrows⟩⟩
  · rw [hsame]
    refine ⟨fun _ rental hrental fee hfee hpositive => ?_, fun _ => hdb⟩
    exact absurd hpositive (not_lt.mpr (hnone rental hrental fee hfee))
  · have hmem : fee ∈ db.lateFees := Table.find?_mem hfee
    have hcovered : Covered db (.applyLateFee now rentalId) ↔
        Balanced (recharge fee (calculateLateFee now rental)) := by
      rw [balanced_recharge]
      constructor
      · exact fun h => h rental hrental fee hfee hpositive
      · intro h r hr f hf _
        obtain rfl := Option.some.inj (hrental.symm.trans hr)
        obtain rfl := Option.some.inj (hfee.symm.trans hf)
        exact h
    rw [hcovered]
    unfold AllBalanced
    rw [hrows]
    refine ⟨fun h => h _ (Table.mem_set.mpr (.inr ⟨rfl, fee, hmem, rfl⟩)), fun h => ?_⟩
    exact balanced_set hdb h
  · refine ⟨fun _ r _ f hf => ?_, fun _ => ?_⟩
    · rw [Option.mem_def, hfee] at hf
      cases hf
    · unfold AllBalanced
      rw [hrows]
      intro x hx
      rcases Table.mem_add.mp hx with hx | rfl
      · exact hdb x hx
      · exact balanced_new rental endDate hpositive _

/-! ## Runs -/

theorem step_of_program {α : Type} [Casing] {op : Op} {x : LateTx α}
    (h : program op = do let _ ← x) (db : LateDb) : step db op = (x.call db).2 := by
  unfold step
  rw [h]
  rcases hx : x (.fresh db) with ⟨e | a, t⟩
  · rw [call_eq hx, call_eq (bind_of_error hx)]
  · rw [call_eq hx, call_eq ((bind_of_ok hx).trans rfl)]

section

variable [Casing]

theorem balanced_step (hdb : AllBalanced db) (op : Op) :
    AllBalanced (step db op) ↔ Covered db op := by
  cases op with
  | applyLateFee now k =>
    rw [step_of_program (x := applyLateFee now k) rfl]
    exact balanced_applyLateFee hdb now k
  | payLateFee k =>
    rw [step_of_program (x := payLateFee k) rfl]
    exact iff_of_true (balanced_payLateFee hdb k) trivial
  | requestLateFeeWaiver k u a r d =>
    rw [step_of_program (x := requestLateFeeWaiver k u a r d) rfl]
    exact iff_of_true (balanced_requestLateFeeWaiver hdb k u a r d) trivial
  | reviewLateFeeWaiver now k u b a n =>
    rw [step_of_program (x := reviewLateFeeWaiver now k u b a n) rfl]
    exact iff_of_true (balanced_reviewLateFeeWaiver hdb now k u b a n) trivial
  | requestExtension k u t r =>
    rw [step_of_program (x := requestExtension k u t r) rfl]
    exact iff_of_true (balanced_of_rows (requestExtension_rows k u t r db) hdb) trivial
  | reviewExtension now k u b n =>
    rw [step_of_program (x := reviewExtension now k u b n) rfl]
    exact iff_of_true (balanced_of_rows (reviewExtension_rows now k u b n db) hdb) trivial
  | returnBattery now k s =>
    rw [step_of_program (x := onFleet (returnBattery now k s)) rfl]
    exact iff_of_true (balanced_of_lateFees rfl hdb) trivial

/-- **The balance of late fees**: the amounts of every late fee add up after every step, with
nothing outstanding of closed ones, if and only if whenever a late fee is charged again, the new fee
covers what was paid and waived, exactly if the late fee is closed. -/
theorem late_fees_balanced (db : LateDb) (hdb : AllBalanced db) (ops : List Op) :
    (∀ p q, ops = p ++ q → AllBalanced (run step db p)) ↔ Along step Covered db ops := by
  have hstep : ∀ db op, AllBalanced db → (AllBalanced (step db op) ↔ Covered db op) :=
    fun _ op h => balanced_step h op
  exact invariant_iff_along hstep hdb ops

end

/-! ## An example -/

/-- A rental that was to end after a day and is scheduled to end twelve hours later, at one rupee an
hour, and a wallet with 100 rupees. -/
def lateStore : LateDb where
  fleet :=
    { rentals := ⟨[
        { id := 1, userId := 1, batteryId := 7, startStationId := 3, startTime := 0
          expectedEndTime := day, endTime := some (day + 12 * (60 * minute)), totalAmount := 24
          securityDeposit := 0, status := .active }], by decide⟩ }
  wallet := .ofWallets .empty ⟨[{ id := 1, userId := 1, balance := 10000 }], by decide⟩

def chargeAndPay : List Op := [.applyLateFee day 1, .payLateFee 1]

theorem lateStore_balanced : AllBalanced lateStore :=
  fun fee h => absurd h (Table.not_mem_empty fee)

theorem late_fees_balanced_sample :
    ((∀ p q, chargeAndPay = p ++ q → AllBalanced (run step lateStore p)) ↔
      Along step Covered lateStore chargeAndPay) ∧
      ∃ fee ∈ (run step lateStore chargeAndPay).lateFees, Closed fee ∧ fee.amountPaid = 1500 := by
  refine ⟨late_fees_balanced lateStore lateStore_balanced chargeAndPay, ?_⟩
  have hpaid : ∃ fee ∈ (run step lateStore chargeAndPay).lateFees,
      fee.paymentStatus = .paid ∧ fee.amountPaid = 1500 := by
    decide +kernel
  obtain ⟨fee, hmem, hstatus, hamount⟩ := hpaid
  exact ⟨fee, hmem, .inl hstatus, hamount⟩

/-- The late fee is paid, the rental is extended by a day, and the late fee is charged again. -/
def chargeAfterExtension : List Op :=
  chargeAndPay ++
    [.requestExtension 1 1 (2 * day + 12 * (60 * minute)) none, .reviewExtension 0 1 9 true none,
      .applyLateFee day 1]

theorem paid_fee_outstanding : ¬ ∀ ops, AllBalanced (run step lateStore ops) := by
  intro hclaim
  have hcharged : ∃ fee ∈ (run step lateStore chargeAfterExtension).lateFees,
      fee.paymentStatus = .paid ∧ fee.amountOutstanding = 3600 := by
    decide +kernel
  obtain ⟨fee, hmem, hstatus, houtstanding⟩ := hcharged
  have hzero := (hclaim chargeAfterExtension fee hmem).closed (.inl hstatus)
  omega

end WezuBackend.Rental.LateFeeBalance
