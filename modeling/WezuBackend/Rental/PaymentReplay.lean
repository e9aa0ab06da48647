import WezuBackend.Rental.Lifecycle

/-!
# One rental a payment

`confirm_rental_verified` asks `PaymentService.fetch_payment` for the payment, and looks for a
`PaymentTransaction` by its `reference_type`.  The source has neither the one nor the other, so
every confirmation raises and leaves the store as it is (`Effects.confirm_raises`).  Hence no
payment activates a rental, let alone two (`payments_activate_once`), and a run of the rental and
swap services never has an active rental if it begins without one (`noneActive_run`).
-/

namespace WezuBackend.Rental.PaymentReplay

open Lib.Tables Lib.Runs Lib.Atomicity.Tx Core.Letters Fleet.Model
open Fleet.Transitions Rental.Service Rental.Effects Rental.Exclusivity Rental.Lifecycle

/-! ## Confirmations -/

structure Confirmation where
  now : ℕ
  rentalId : ℕ
  userId : ℕ
  proof : PaymentProof
  paymentReference : Option String := none
  /-- whether the gateway accepts the signature -/
  signatureOk : Bool := true

/-- A payment has activated a rental. -/
structure Activation where
  rentalId : ℕ
  paymentId : String
  deriving DecidableEq, Repr

structure World where
  db : Db
  activations : List Activation := []

def AtMostOneRental (activations : List Activation) : Prop :=
  ∀ a ∈ activations, ∀ b ∈ activations, a.paymentId = b.paymentId → a.rentalId = b.rentalId

section

variable [Casing]

/-- The store after a confirmation. -/
def confirmed (db : Db) (c : Confirmation) : Db :=
  ((confirmRentalVerified c.now (.asItStands c.signatureOk) c.rentalId c.userId c.proof
    c.paymentReference).call db).2

/-- A confirmation; a rental that it has made active out of a pending one is noted. -/
def confirmStep (w : World) (c : Confirmation) : World :=
  if statusOf w.db.rentals c.rentalId = some .pendingPayment ∧
      statusOf (confirmed w.db c).rentals c.rentalId = some .active then
    { db := confirmed w.db c
      activations := ⟨c.rentalId, c.proof.razorpayPaymentId⟩ :: w.activations }
  else { w with db := confirmed w.db c }

theorem confirmed_eq (db : Db) (c : Confirmation) : confirmed db c = db := by
  obtain ⟨e, hraises⟩ :=
    confirm_raises c.now c.rentalId c.userId c.signatureOk c.proof c.paymentReference db
  rw [confirmed, hraises]

theorem confirmStep_eq (w : World) (c : Confirmation) : confirmStep w c = w := by
  unfold confirmStep
  rw [confirmed_eq, if_neg]
  rintro ⟨hpending, hactive⟩
  rw [hpending] at hactive
  cases hactive

/-- **Payment replay.**  In every run of confirmations over any rentals, no payment activates two
rentals. -/
theorem payments_activate_once (db : Db) (calls : List Confirmation) :
    AtMostOneRental (run confirmStep { db } calls).activations := by
  have hnone : (run confirmStep { db } calls).activations = [] :=
    run_invariant (I := fun w : World => w.activations = [])
      (fun w c hw => by rw [confirmStep_eq]; exact hw) rfl calls
  rw [hnone]
  exact fun a ha => absurd ha List.not_mem_nil

/-! ## No rental becomes active -/

def NoneActive (db : Db) : Prop := ∀ r ∈ db.rentals, r.status ≠ .active

/-- A confirmation finds the payment service and the columns of the transactions as they are. -/
def AsItStands : Call → Prop
  | .confirmRentalVerified _ side _ _ _ _ => ∃ signatureOk, side = .asItStands signatureOk
  | _ => True

variable {db db' : Db}

omit [Casing] in
theorem noneActive_set (h : NoneActive db) {r : Rental} (hr : r.status ≠ .active)
    (hdb : db'.rentals = db.rentals.set r) : NoneActive db' := by
  intro x hx
  rw [hdb] at hx
  rcases Table.mem_set.mp hx with ⟨hx, -⟩ | ⟨rfl, -⟩
  · exact h x hx
  · exact hr

theorem noneActive_cleanup (now : ℕ) (userId : Option ℕ) :
    Keeps NoneActive (cleanupStalePendingRentals now userId) :=
  keeps_cleanup now (fun r s t u _ _ hcancel hs =>
    noneActive_set hs (by simp) (cancelStale_ok hcancel).1) userId

theorem noneActive_step (h : NoneActive db) (call : Call) (hcall : AsItStands call) :
    NoneActive (Exclusivity.step db call) := by
  cases call with
  | initiateRental now userId rentalIn =>
    refine (keeps_initiate (noneActive_cleanup _ _) fun rental s t hreserved hs r hr => ?_).call h
    obtain ⟨hkey, hrentals⟩ := hreserved.added
    rw [hrentals] at hr
    rcases Table.mem_add.mp hr with hr | rfl
    · exact hs r hr
    · rw [hreserved.status]
      simp
  | confirmRentalVerified now side rentalId userId proof reference =>
    obtain ⟨signatureOk, rfl⟩ := hcall
    obtain ⟨e, hraises⟩ := confirm_raises now rentalId userId signatureOk proof reference db
    have hsame : Exclusivity.step db
        (.confirmRentalVerified now (.asItStands signatureOk) rentalId userId proof reference) =
        db :=
      congrArg Prod.snd hraises
    rw [hsame]
    exact h
  | cleanupStalePendingRentals now userId => exact (noneActive_cleanup _ _).call h
  | returnBattery now rentalId stationId =>
    exact (keeps_return (fun rental s t hreturned hs =>
      absurd hreturned.active (hs rental hreturned.mem)) _).call h
  | executeSwap now rentalId newBatteryId stationId autoCommit callerCommits =>
    refine Keeps.call ?_ h
    refine Keeps.bind (keeps_swap (fun rental old new s t hswapped hs =>
      absurd hswapped.active (hs rental hswapped.mem)) _ _ _ _) fun _ => ?_
    refine (keeps_unlessSkipped _ ?_).bind fun _ => (readOnly_pure _).keeps
    exact readOnly_flush.keeps.bind fun _ => keeps_commit

theorem noneActive_run (h : NoneActive db) {calls : List Call}
    (hcalls : ∀ call ∈ calls, AsItStands call) : NoneActive (run Exclusivity.step db calls) := by
  induction calls generalizing db with
  | nil => exact h
  | cons call calls ih =>
    exact ih (noneActive_step h call (hcalls call List.mem_cons_self))
      fun c hc => hcalls c (List.mem_cons_of_mem _ hc)

/-- **As the source stands**, every confirmation raises and leaves the store as it is, and no run
that begins without an active rental ever has one. -/
theorem confirmations_never_activate (db : Db) :
    (∀ now rentalId userId signatureOk proof reference, ∃ e,
      (confirmRentalVerified now (.asItStands signatureOk) rentalId userId proof reference).call
        db = (.error e, db)) ∧
    (NoneActive db → ∀ calls : List Call, (∀ call ∈ calls, AsItStands call) →
      NoneActive (run Exclusivity.step db calls)) :=
  ⟨fun now rentalId userId signatureOk proof reference =>
    confirm_raises now rentalId userId signatureOk proof reference db,
    fun h _ hcalls => noneActive_run h hcalls⟩

end

/-- A rental is reserved, and its payment presented. -/
def reservedAndPresented : List Call :=
  [.initiateRental 100 1 { batteryId := 7, startStationId := 3 },
    .confirmRentalVerified 200 (.asItStands true) 1 1 ⟨"order_1", "pay_1", "sig"⟩ none]

theorem asItStands_reservedAndPresented : ∀ call ∈ reservedAndPresented, AsItStands call := by
  intro call hcall
  rcases List.mem_cons.mp hcall with rfl | hcall
  · trivial
  · rw [List.mem_singleton.mp hcall]
    exact ⟨true, rfl⟩

theorem confirmations_never_activate_sample :
    NoneActive (run Exclusivity.step rentalStore reservedAndPresented) ∧
      (run Exclusivity.step rentalStore reservedAndPresented).rentals.rows.map Rental.status =
        [.pendingPayment] :=
  ⟨(confirmations_never_activate rentalStore).2 (fun r hr => absurd hr (Table.not_mem_empty r)) _
    asItStands_reservedAndPresented, by decide +kernel⟩

end WezuBackend.Rental.PaymentReplay
