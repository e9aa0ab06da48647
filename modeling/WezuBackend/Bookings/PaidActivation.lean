import WezuBackend.Bookings.Evolution
import WezuBackend.Lib.Runs

/-!
# Active reservations and their payment

A reservation becomes active by a payment or by an update of its status.  A payment takes the amount
that its request names, and no amount if that is NaN; an update takes nothing.  `debits` lists what
the payment requests have taken from the wallets of their users.

Every active or completed reservation has been paid for, by the fee at least, if and only if no
update activates a pending reservation and every payment that goes through takes the fee at least
(`paid_for_iff`).  In one direction each outcome of a request keeps this (`allPaidFor_step`).  In
the other, a pending reservation has not been paid for (`Spent`), so that a request that activates
it for less than the fee leaves it unpaid (`covers_of_allPaidFor`).
-/

namespace WezuBackend.Bookings.PaidActivation

open Lib.Tables Lib.Runs Lib.Atomicity Lib.Atomicity.Tx Core.Base Core.Letters Core.Floats
open Bookings.Payment Bookings.Reservations Bookings.Evolution

/-! ## The system -/

def fee : ℤ := roundToHundredths configuredAmount

theorem fee_pos : 0 < fee := by decide +kernel

/-- What a payment request took from the wallet of its user. -/
structure Debit where
  bookingId : ℕ
  userId : ℕ
  amount : ℤ

/-- A request, and the time since the last one. -/
structure Call where
  elapsed : ℕ
  request : BookingRequest

structure World where
  clock : ℕ
  db : Db
  debits : List Debit

/-- The debit of a request with the tables before and after it: none where a balance is NaN. -/
def debitsOf (db db' : Db) : BookingRequest → List Debit
  | .pay bookingId userId _ =>
    match userBalance userId db, userBalance userId db' with
    | some before, some after => [⟨bookingId, userId, before - after⟩]
    | _, _ => []
  | _ => []

def step [Casing] (w : World) (c : Call) : World where
  clock := w.clock + c.elapsed
  db := bookingStep (w.clock + c.elapsed) w.db c.request
  debits := w.debits ++
    debitsOf w.db (bookingStep (w.clock + c.elapsed) w.db c.request) c.request

/-! ## Reservations that are paid for -/

def Activated (status : String) : Prop := status = "ACTIVE" ∨ status = "COMPLETED"

instance (status : String) : Decidable (Activated status) := by
  unfold Activated
  infer_instance

/-- The wallet of the reservation's user was debited for it, by the fee at least. -/
def PaidFor (debits : List Debit) (r : BatteryReservation) : Prop :=
  ∃ d ∈ debits, d.bookingId = r.id ∧ d.userId = r.userId ∧ fee ≤ d.amount

def AllPaidFor (t : Table BatteryReservation) (debits : List Debit) : Prop :=
  ∀ r ∈ t, Activated r.status → PaidFor debits r

/-- The reservations that have been paid for are not pending any more. -/
def Spent (t : Table BatteryReservation) (debits : List Debit) : Prop :=
  ∀ d ∈ debits, fee ≤ d.amount → ∃ r ∈ t, r.id = d.bookingId ∧ r.status ≠ "PENDING"

/-- The user's booking is pending, and its time is not over. -/
def IsPending (now bookingId userId : ℕ) (db : Db) (r : BatteryReservation) : Prop :=
  r ∈ db.reservations ∧ r.id = bookingId ∧ r.userId = userId ∧ r.status = "PENDING" ∧
    now < r.endTime

/-- The condition under which a request leaves no reservation unpaid. -/
def Covers [Casing] (now : ℕ) (db : Db) : BookingRequest → Prop
  | .update bookingId userId status =>
    (∃ r, IsPending now bookingId userId db r) → ∀ text ∈ status, normal text ≠ "ACTIVE"
  | .pay bookingId userId paymentIn => ∀ booking,
    Payable db now bookingId paymentIn userId booking →
    Passes (walletFor userId db).2 (walletFor userId db).1 (paymentAmount paymentIn) →
      ∃ amount ∈ paymentAmount paymentIn, ∃ balance ∈ userBalance userId db,
        fee ≤ balance - floatSub balance amount
  | _ => True

section

variable {t t' : Table BatteryReservation} {debits debits' : List Debit} {T : String → Prop}

theorem PaidFor.append {r : BatteryReservation} (h : PaidFor debits r) :
    PaidFor (debits ++ debits') r := by
  obtain ⟨d, hd, hpaid⟩ := h
  exact ⟨d, List.mem_append_left _ hd, hpaid⟩

theorem AllPaidFor.append (h : AllPaidFor t debits) : AllPaidFor t (debits ++ debits') :=
  fun r hr hactivated => (h r hr hactivated).append

theorem AllPaidFor.of_origin (h : AllPaidFor t debits)
    (horigin : ∀ r' ∈ t', Activated r'.status → ∃ r ∈ t, Same r r' ∧ Activated r.status) :
    AllPaidFor t' debits := by
  intro r' hr' hactivated
  obtain ⟨r, hr, hsame, hbefore⟩ := horigin r' hr' hactivated
  obtain ⟨d, hd, hid, huser, hfee⟩ := h r hr hbefore
  exact ⟨d, hd, hid.trans hsame.id.symm, huser.trans hsame.user.symm, hfee⟩

theorem AllPaidFor.evolves (h : AllPaidFor t debits) (hevolves : Evolves T t t')
    (hT : ∀ s, T s → ¬ Activated s) : AllPaidFor t' debits := by
  refine h.of_origin fun r' hr' hactivated => ?_
  obtain ⟨r, hr, hsame, heq | ⟨-, hmoved⟩⟩ := hevolves.origin r' hr'
  · exact ⟨r, hr, hsame, heq ▸ hactivated⟩
  · exact absurd hactivated (hT _ hmoved)

theorem Spent.evolves (h : Spent t debits) (hevolves : Evolves T t t')
    (hT : ∀ s, T s → s ≠ "PENDING") : Spent t' debits := by
  intro d hd hfee
  obtain ⟨r, hr, hid, hne⟩ := h d hd hfee
  obtain ⟨r', hr', hid'⟩ := hevolves.kept r hr
  obtain ⟨x, hx, hsame, hmoves⟩ := hevolves.origin r' hr'
  obtain rfl : x = r := Table.eq_of_key hx hr (hsame.id.symm.trans hid')
  refine ⟨r', hr', hid'.trans hid, ?_⟩
  rcases hmoves with heq | ⟨-, hmoved⟩
  · rwa [heq]
  · exact hT _ hmoved

theorem Spent.append (h : Spent t debits)
    (h' : ∀ d ∈ debits', fee ≤ d.amount → ∃ r ∈ t, r.id = d.bookingId ∧ r.status ≠ "PENDING") :
    Spent t (debits ++ debits') := by
  intro d hd hfee
  rcases List.mem_append.mp hd with hd | hd
  · exact h d hd hfee
  · exact h' d hd hfee

theorem Spent.add (h : Spent t debits) {mk : ℕ → BatteryReservation}
    (hmk : ∀ k, Row.key (mk k) = k) :
    Spent (t.add mk hmk) debits := by
  intro d hd hfee
  obtain ⟨r, hr, hrow⟩ := h d hd hfee
  exact ⟨r, (Table.mem_add_mk hmk).mpr (.inl hr), hrow⟩

end

/-! ## What a request does -/

theorem not_activated_expired (s : String) (h : s = "EXPIRED") : ¬ Activated s := by
  subst h
  decide

theorem expired_ne_pending (s : String) (h : s = "EXPIRED") : s ≠ "PENDING" := by
  subst h
  decide

/-- The debit of a payment request. -/
theorem mem_debitsOf {db db' : Db} {bookingId userId : ℕ} {paymentIn : Option BookingPaymentRequest}
    {d : Debit} : d ∈ debitsOf db db' (.pay bookingId userId paymentIn) ↔
      ∃ before ∈ userBalance userId db, ∃ after ∈ userBalance userId db',
        d = ⟨bookingId, userId, before - after⟩ := by
  simp only [debitsOf]
  rcases userBalance userId db with _ | before
  · simp
  · rcases userBalance userId db' with _ | after <;> simp

theorem debitsOf_zero {db db' : Db} (h : ∀ k, userBalance k db' = userBalance k db)
    (request : BookingRequest) : ∀ d ∈ debitsOf db db' request, d.amount = 0 := by
  intro d hd
  cases request with
  | pay bookingId userId paymentIn =>
    obtain ⟨before, hbefore, after, hafter, rfl⟩ := mem_debitsOf.mp hd
    rw [h] at hafter
    obtain rfl : before = after := Option.mem_unique hbefore hafter
    exact sub_self before
  | _ => cases hd

/-- The balance that a payment leaves. -/
theorem userBalance_after (now : ℕ) (booking : BatteryReservation) (amount : Option ℤ) (userId : ℕ)
    (db : Db) : userBalance userId (paid now booking (walletFor userId db).1 amount
      (walletFor userId db).2) = balanceLeft (userBalance userId db) amount := by
  rw [userBalance_paid now booking amount (find_walletFor userId db), walletBalance_walletFor]

section

variable [Casing] [Capitals] {now : ℕ} {db db' : Db} {request : BookingRequest}
  {debits : List Debit}

variable {bookingId userId : ℕ}

theorem pending_of_payable (hknown : AllKnown db.reservations)
    {paymentIn : Option BookingPaymentRequest} {booking : BatteryReservation}
    (h : Payable db now bookingId paymentIn userId booking) :
    IsPending now bookingId userId db booking := by
  obtain ⟨hget, huser, hpending, hdue, -⟩ := h
  obtain ⟨hmem, hid⟩ := Table.get?_eq_some.mp hget
  rw [normal_of_known (hknown booking hmem)] at hpending
  exact ⟨hmem, hid, huser, hpending, hdue⟩

theorem spent_step (hknown : AllKnown db.reservations) (hout : Outcome now db request db')
    (h : Spent db.reservations debits) :
    Spent db'.reservations (debits ++ debitsOf db db' request) := by
  cases hout with
  | lapsed hlapsed hbalance =>
    refine (h.evolves hlapsed expired_ne_pending).append fun d hd hfee => ?_
    have := debitsOf_zero hbalance request d hd
    have := fee_pos
    omega
  | created hlapses =>
    show Spent _ (debits ++ [])
    rw [List.append_nil]
    exact (h.evolves hlapses.evolves expired_ne_pending).add (key_newReservation _ _ _ _)
  | @updated bookingId userId status booking db' hfound htext ht =>
    show Spent _ (debits ++ [])
    rw [List.append_nil]
    have hne : normal status ≠ "PENDING" := by
      rcases allowed_cases ht with ⟨-, hs | hs | hs⟩ | ⟨-, hs | hs⟩ <;> rw [hs] <;> decide
    exact (h.evolves hfound.evolves expired_ne_pending).evolves
      (evolves_withStatus (T := (· ≠ "PENDING")) hfound.mem (open_of_allowed ht).1 hne)
        fun _ hs => hs
  | cancelled hfound hopen =>
    show Spent _ (debits ++ [])
    rw [List.append_nil]
    exact (h.evolves hfound.evolves expired_ne_pending).evolves
      (evolves_withStatus (T := (· = "CANCELLED")) hfound.mem hopen rfl) (by rintro _ rfl; decide)
  | @paid bookingId userId paymentIn booking hpayable hpasses =>
    obtain ⟨hmem, hid, -, hpending, -⟩ := pending_of_payable hknown hpayable
    rw [← reservations_walletFor userId db] at h hmem
    refine (h.evolves (evolves_withStatus (T := (· = "ACTIVE")) hmem (.inl hpending) rfl)
      (by rintro _ rfl; decide)).append fun d hd hfee => ?_
    obtain ⟨before, -, after, -, rfl⟩ := mem_debitsOf.mp hd
    exact ⟨withStatus now "ACTIVE" booking, Table.mem_set.mpr (.inr ⟨rfl, booking, hmem, rfl⟩), hid,
      (by decide : "ACTIVE" ≠ "PENDING")⟩

/-- **Every outcome** of a request that meets its condition leaves all paid for. -/
theorem allPaidFor_step (hknown : AllKnown db.reservations) (hout : Outcome now db request db')
    (hcovers : Covers now db request) (h : AllPaidFor db.reservations debits) :
    AllPaidFor db'.reservations (debits ++ debitsOf db db' request) := by
  cases hout with
  | lapsed hlapsed hbalance => exact (h.evolves hlapsed not_activated_expired).append
  | created hlapses =>
    refine AllPaidFor.append ?_
    intro r hr hactivated
    rcases (Table.mem_add_mk (key_newReservation _ _ _ _)).mp hr with hr | rfl
    · exact h.evolves hlapses.evolves not_activated_expired r hr hactivated
    · exact absurd hactivated (by decide : ¬ Activated "PENDING")
  | @updated bookingId userId status booking db' hfound htext ht =>
    have hlapsed := h.evolves hfound.evolves not_activated_expired
    refine AllPaidFor.append (hlapsed.of_origin fun r' hr' hactivated => ?_)
    rcases Table.mem_set.mp hr' with ⟨hr', -⟩ | ⟨rfl, -⟩
    · exact ⟨r', hr', same_refl r', hactivated⟩
    · refine ⟨booking, hfound.mem, ⟨rfl, rfl, rfl, rfl⟩, ?_⟩
      rcases allowed_cases ht with ⟨hpending, htarget⟩ | ⟨hactive, -⟩
      · obtain ⟨hdue, rfl⟩ := hfound.pending hpending
        have hne : normal status ≠ "ACTIVE" :=
          hcovers ⟨booking, hfound.mem, hfound.id, hfound.user, hpending, hdue⟩ status rfl
        exfalso
        rcases htarget with hs | hs | hs
        · exact hne hs
        · have hcancelled : Activated (normal status) := hactivated
          rw [hs] at hcancelled
          exact absurd hcancelled (by decide)
        · exact not_activated_expired _ hs hactivated
      · exact .inl hactive
  | cancelled hfound hopen =>
    refine AllPaidFor.append ?_
    exact (h.evolves hfound.evolves not_activated_expired).evolves
      (evolves_withStatus (T := (· = "CANCELLED")) hfound.mem hopen rfl)
      (by rintro _ rfl; decide)
  | @paid bookingId userId paymentIn booking hpayable hpasses =>
    intro r hr hactivated
    rcases Table.mem_set.mp hr with ⟨hr, -⟩ | ⟨rfl, -⟩
    · rw [reservations_walletFor] at hr
      exact (h r hr hactivated).append
    · obtain ⟨-, hid, huser, -⟩ := pending_of_payable hknown hpayable
      obtain ⟨amount, ha, balance, hb, hfee⟩ := hcovers booking hpayable hpasses
      refine ⟨⟨bookingId, userId, balance - floatSub balance amount⟩,
        List.mem_append_right _ (mem_debitsOf.mpr ⟨balance, hb, _, ?_, rfl⟩), hid.symm, huser.symm,
        hfee⟩
      rw [userBalance_after, Option.mem_def.mp ha, Option.mem_def.mp hb]
      rfl

variable {r : BatteryReservation}

theorem currentBooking_of_pending (hknown : AllKnown db.reservations)
    (h : IsPending now bookingId userId db r) :
    currentBooking now bookingId userId (.fresh db) = (.ok r, .fresh db) := by
  obtain ⟨hmem, hid, huser, hpending, hdue⟩ := h
  have hget : db.reservations.get? bookingId = some r := Table.get?_eq_some.mpr ⟨hmem, hid⟩
  have hfound : getUserBookingOr404 bookingId userId (.fresh db) = (.ok r, .fresh db) := by
    rw [getUserBookingOr404, look_bind, Session.working_fresh, demand_bind hget, ensure_bind huser]
    rfl
  have hnormal : normal r.status = "PENDING" := by rw [normal_of_known (hknown r hmem), hpending]
  unfold currentBooking
  rw [bind_of_ok hfound, markExpiredIfDue, if_neg (not_not.mpr hnormal), if_pos hdue]
  rfl

variable {text : String}

theorem truthy_of_active (h : normal text = "ACTIVE") :
    truthy (some text) = some text := by
  refine truthy_eq_some.mpr ⟨rfl, ?_⟩
  rintro rfl
  rw [normal_capital (by decide) (by decide)] at h
  exact absurd h (by decide)

theorem bookingStep_activate (hknown : AllKnown db.reservations)
    (h : IsPending now bookingId userId db r) (htext : normal text = "ACTIVE") :
    bookingStep now db (.update bookingId userId (some text)) =
      save (withStatus now "ACTIVE" r) db := by
  have hnormal : normal r.status = "PENDING" := by
    rw [normal_of_known (hknown r h.1), h.2.2.2.1]
  have hallowed : isTransitionAllowed (normal r.status) (normal text) = true := by
    unfold isTransitionAllowed
    rw [normal_normal, normal_normal, hnormal, htext]
    decide
  have hne : normal text ≠ normal r.status := by
    rw [htext, hnormal]
    decide
  have hcall : ((updateBooking now bookingId userId (some text)).call db).2 =
      save (withStatus now "ACTIVE" r) db := by
    unfold Tx.call updateBooking
    rw [bind_of_ok (currentBooking_of_pending hknown h)]
    simp only [truthy_of_active htext, if_neg hne, ensure_bind hallowed]
    rw [htext]
    rfl
  exact hcall

theorem covers_of_allPaidFor (hknown : AllKnown db.reservations)
    (hspent : Spent db.reservations debits)
    (h : AllPaidFor (bookingStep now db request).reservations
      (debits ++ debitsOf db (bookingStep now db request) request)) : Covers now db request := by
  have hunpaid : ∀ {bookingId userId : ℕ} {r : BatteryReservation},
      IsPending now bookingId userId db r → ∀ d ∈ debits, fee ≤ d.amount → d.bookingId ≠ r.id := by
    rintro bookingId userId r ⟨hmem, -, -, hpending, -⟩ d hd hfee hid
    obtain ⟨r', hr', hid', hne⟩ := hspent d hd hfee
    rw [Table.eq_of_key hr' hmem (hid'.trans hid)] at hne
    exact hne hpending
  cases request with
  | update bookingId userId status =>
    rintro ⟨r, hr⟩ text rfl htext
    rw [bookingStep_activate hknown hr htext] at h
    obtain ⟨d, hd, hid, -, hfee⟩ := h (withStatus now "ACTIVE" r)
      (Table.mem_set.mpr (.inr ⟨rfl, r, hr.1, rfl⟩)) (.inl rfl)
    have hd : d ∈ debits ++ [] := hd
    rw [List.append_nil] at hd
    exact hunpaid hr d hd hfee hid
  | pay bookingId userId paymentIn =>
    intro booking hpayable hpasses
    have hpending := pending_of_payable hknown hpayable
    have hstep : bookingStep now db (.pay bookingId userId paymentIn) =
        paid now booking (walletFor userId db).1 (paymentAmount paymentIn)
          (walletFor userId db).2 :=
      payForBooking_of_passes hpayable hpasses
    rw [hstep] at h
    obtain ⟨d, hd, hid, -, hfee⟩ := h (withStatus now "ACTIVE" booking)
      (Table.mem_set.mpr (.inr ⟨rfl, booking,
        (reservations_walletFor userId db).symm ▸ hpending.1, rfl⟩)) (.inl rfl)
    rcases List.mem_append.mp hd with hd | hd
    · exact absurd hid (hunpaid hpending d hd hfee)
    obtain ⟨balance, hb, left, hleft, rfl⟩ := mem_debitsOf.mp hd
    rw [userBalance_after, Option.mem_def.mp hb] at hleft
    rcases ha : paymentAmount paymentIn with _ | amount
    · rw [ha] at hleft
      cases hleft
    · rw [ha] at hleft
      obtain rfl : floatSub balance amount = left := Option.some.inj hleft
      exact ⟨amount, rfl, balance, hb, hfee⟩
  | _ => trivial

end

/-! ## Runs -/

/-- In every state of the run each active or completed reservation has been paid for. -/
def RunPaidFor [Casing] (w : World) (calls : List Call) : Prop :=
  ∀ p q, calls = p ++ q → AllPaidFor (run step w p).db.reservations (run step w p).debits

/-- **Every active or completed reservation has been paid for** in a run if and only if each of its
requests meets its condition. -/
theorem paid_for_iff [Casing] [Capitals] {w : World} (hknown : AllKnown w.db.reservations)
    (hspent : Spent w.db.reservations w.debits) (hpaid : AllPaidFor w.db.reservations w.debits)
    (calls : List Call) : RunPaidFor w calls ↔
      Along step (fun w c => Covers (w.clock + c.elapsed) w.db c.request) w calls := by
  refine invariant_iff_along_within
    (J := fun w : World => AllKnown w.db.reservations ∧ Spent w.db.reservations w.debits)
    (I := fun w => AllPaidFor w.db.reservations w.debits) ?_ ?_ ⟨hknown, hspent⟩ hpaid calls
  · rintro w c ⟨hknown, hspent⟩
    have hout := bookingStep_outcome hknown (w.clock + c.elapsed) c.request
    exact ⟨hout.allKnown hknown, spent_step hknown hout hspent⟩
  · rintro w c ⟨hknown, hspent⟩ hpaid
    refine ⟨covers_of_allPaidFor hknown hspent, fun hcovers => ?_⟩
    exact allPaidFor_step hknown (bookingStep_outcome hknown _ c.request) hcovers hpaid

def opening : World := ⟨0, noReservations, []⟩

def onPostgresql : World :=
  ⟨0, { noReservations with wallet := { noReservations.wallet with engine := .postgresql } }, []⟩

theorem opening_known : AllKnown opening.db.reservations :=
  fun r hr => absurd hr (Table.not_mem_empty r)

theorem opening_spent : Spent opening.db.reservations opening.debits := fun d hd => by cases hd

theorem opening_paid : AllPaidFor opening.db.reservations opening.debits :=
  fun r hr => absurd hr (Table.not_mem_empty r)

/-- A booking is created, paid and completed. -/
def paidBooking : List Call :=
  [⟨1, .create oneBattery 1 1⟩, ⟨1, .pay 1 1 none⟩, ⟨1, .update 1 1 (some "completed")⟩]

theorem paid_for_iff_sample :
    (RunPaidFor opening paidBooking ↔
      Along step (fun w c => Covers (w.clock + c.elapsed) w.db c.request) opening paidBooking) ∧
      ∃ r ∈ (run step opening paidBooking).db.reservations, r.status = "COMPLETED" := by
  refine ⟨paid_for_iff opening_known opening_spent opening_paid paidBooking, ?_⟩
  decide +kernel

def activatedBooking : List Call := [⟨1, .create oneBattery 1 1⟩, ⟨1, .update 1 1 (some "ACTIVE")⟩]

/-- A booking is paid with an amount. -/
def bookingPaidWith (amount : RequestAmount) : List Call :=
  [⟨1, .create oneBattery 1 1⟩, ⟨1, .pay 1 1 (some { amount := some amount })⟩]

/-- Active reservations that nothing, a hundredth, or a NaN was paid for. -/
theorem not_paid_for : ¬ RunPaidFor opening activatedBooking ∧
    ¬ RunPaidFor opening (bookingPaidWith (.number (1 / 100))) ∧
    ¬ RunPaidFor onPostgresql (bookingPaidWith .nan) := by
  have hunpaid : ∀ (w : World) (calls : List Call),
      (∃ r ∈ (run step w calls).db.reservations, Activated r.status) →
      (∀ d ∈ (run step w calls).debits, d.amount < fee) → ¬ RunPaidFor w calls := by
    rintro w calls ⟨r, hr, hactivated⟩ hbelow h
    obtain ⟨d, hd, -, -, hfee⟩ := h calls [] (List.append_nil calls).symm r hr hactivated
    have := hbelow d hd
    omega
  exact ⟨hunpaid _ activatedBooking (by decide +kernel) (by decide +kernel),
    hunpaid _ _ (by decide +kernel) (by decide +kernel),
    hunpaid _ _ (by decide +kernel) (by decide +kernel)⟩

end WezuBackend.Bookings.PaidActivation
