import WezuBackend.Bookings.Evolution
import WezuBackend.Lib.Runs

/-!
# Two APIs on one table of reservations

The bookings API looks for live reservations before it creates one, and moves reservations only
along its transitions.  The customer API looks for an active reservation only, and cancels whatever
it is given.  So a user has at most one live reservation, a battery is in at most one, and a closed
reservation stays as it is, if and only if the customer API reserves for no user with a live one and
cancels nothing that is completed or expired (`consistent_iff`).

The clock only goes on.
-/

namespace WezuBackend.Bookings.TwoApis

open Lib.Tables Lib.Runs Lib.Atomicity Lib.Atomicity.Tx Core.Letters Bookings.Payment
open Bookings.Reservations Bookings.Evolution

/-! ## The system -/

inductive Request where
  | booking (request : BookingRequest)
  | customer (request : CustomerRequest)

/-- A request, and the time since the last one. -/
structure Event where
  elapsed : ℕ
  request : Request

structure World where
  clock : ℕ
  db : Db

def requestStep [Casing] (naive : Bool) (now : ℕ) (db : Db) : Request → Db
  | .booking request => bookingStep now db request
  | .customer request => customerStep naive now db request

def step [Casing] (naive : Bool) (w : World) (e : Event) : World :=
  ⟨w.clock + e.elapsed, requestStep naive (w.clock + e.elapsed) w.db e.request⟩

/-- The customer API creates a reservation: the station is there, and the first active reservation
of the user, if there is one, is overdue and can be seen to be so. -/
def Accepts (naive : Bool) (now : ℕ) (site : Site) (userId stationId : ℕ) (db : Db) : Prop :=
  (site.stations.get? stationId).isSome ∧
    ∀ r ∈ activeOf userId db, naive = false ∧ r.endTime < now

/-- The condition under which a request keeps the reservations consistent. -/
def Agrees (naive : Bool) (now : ℕ) (db : Db) : Request → Prop
  | .customer (.reserve site userId stationId durationMinutes _) =>
    Accepts naive now site userId stationId db → 0 < durationMinutes → ¬ HasLive now userId db
  | .customer (.cancel reservationId userId) =>
    ∀ r ∈ db.reservations, r.id = reservationId → r.userId = userId →
      r.status ≠ "COMPLETED" ∧ r.status ≠ "EXPIRED"
  | _ => True

section

variable {db : Db} {now : ℕ}

variable {db' : Db}

theorem outcome_consistent [Casing] [Capitals] {request : BookingRequest}
    (h : Outcome now db request db') (hknown : AllKnown db.reservations)
    (hlive : LiveOnce now db.reservations) :
    AllKnown db'.reservations ∧ LiveOnce now db'.reservations ∧
      Settled db.reservations db'.reservations := by
  refine ⟨h.allKnown hknown, ?_⟩
  rcases h.evolves_or_reserved hknown with
    hevolves | ⟨userId, stationId, batteryId, db₁, hlapses, hfree, hbattery, rfl⟩
  · exact ⟨hevolves.liveOnce hlive, hevolves.settled⟩
  · have hkey := key_newReservation now userId stationId batteryId
    refine ⟨(hlapses.evolves.liveOnce hlive).add hkey fun _ r hr hl hcontend => ?_,
      hlapses.evolves.settled.trans (settled_add _ hkey)⟩
    rcases hcontend with huser | ⟨b, hb, hnew⟩
    · exact hfree ⟨r, hr, huser, hl⟩
    · cases hnew
      exact not_live_of_free hbattery r hr hl hb

/-! ## The customer API -/

variable {r : BatteryReservation}

theorem activeOf_mem {userId : ℕ} (h : activeOf userId db = some r) :
    r ∈ db.reservations ∧ r.userId = userId ∧ r.status = "ACTIVE" := by
  exact Table.find?_spec h

theorem userReservation_cases (db : Db) (reservationId userId : ℕ) :
    (∃ e, userReservation reservationId userId (.fresh db) = (.error e, .fresh db)) ∧
      (∀ r ∈ db.reservations, r.id = reservationId → r.userId ≠ userId) ∨
    ∃ r ∈ db.reservations, r.id = reservationId ∧ r.userId = userId ∧
      userReservation reservationId userId (.fresh db) = (.ok r, .fresh db) := by
  unfold userReservation
  rw [look_bind, Session.working_fresh]
  rcases hget : db.reservations.get? reservationId with _ | r
  · rw [demand_bind_none rfl]
    refine .inl ⟨⟨_, rfl⟩, fun r hr hid => ?_⟩
    exact absurd hid (Table.get?_eq_none.mp hget r hr)
  · obtain ⟨hmem, hid⟩ := Table.get?_eq_some.mp hget
    rw [demand_bind rfl]
    by_cases huser : r.userId = userId
    · rw [ensure_bind huser]
      exact .inr ⟨r, hmem, hid, huser, rfl⟩
    · rw [ensure_bind_not huser]
      refine .inl ⟨⟨_, rfl⟩, fun x hx hxid => ?_⟩
      rwa [Table.eq_of_key hx hmem (Eq.trans hxid hid.symm)]

theorem lapses_expire (hr : r ∈ db.reservations) (hactive : r.status = "ACTIVE") :
    Lapses db (save (asStatus "EXPIRED" r) db) :=
  ⟨evolves_set hr ⟨rfl, rfl, rfl, rfl⟩ (.inr ⟨.inr hactive, rfl⟩), rfl⟩

theorem overdue_cases (db : Db) (now : ℕ) (naive : Bool) (r : BatteryReservation) :
    (∃ e, overdue naive now r (.fresh db) = (.error e, .fresh db) ∧ naive = true) ∨
      overdue naive now r (.fresh db) = (.ok (decide (r.endTime < now)), .fresh db) ∧
        naive = false := by
  unfold overdue
  rcases naive with _ | _
  · exact .inr ⟨rfl, rfl⟩
  · exact .inl ⟨_, rfl, rfl⟩

/-- The look at an active reservation expires it, or leaves everything as it is. -/
theorem getActiveReservation_lapses (naive : Bool) (site : Site) (userId : ℕ) :
    Lapses db ((getActiveReservation naive now site userId).call db).2 := by
  unfold Tx.call getActiveReservation
  rw [look_bind, Session.working_fresh]
  rcases hactive : activeOf userId db with _ | r
  · exact lapses_refl db
  · obtain ⟨hmem, -, hstatus⟩ := activeOf_mem hactive
    dsimp only
    rcases overdue_cases db now naive r with ⟨e, hrun, -⟩ | ⟨hrun, -⟩
    · rw [bind_of_error hrun]
      exact lapses_refl db
    · rw [bind_of_ok hrun]
      split_ifs
      · exact lapses_expire hmem hstatus
      · exact lapses_refl db

theorem getReservationStatus_lapses (naive : Bool) (reservationId userId : ℕ) :
    Lapses db ((getReservationStatus naive now reservationId userId).call db).2 := by
  unfold Tx.call getReservationStatus
  rcases userReservation_cases db reservationId userId with ⟨⟨e, hrun⟩, -⟩ | ⟨r, hmem, -, -, hrun⟩
  · rw [bind_of_error hrun]
    exact lapses_refl db
  · rw [bind_of_ok hrun]
    split_ifs with hstatus
    · rcases overdue_cases db now naive r with ⟨e, hover, -⟩ | ⟨hover, -⟩
      · rw [bind_of_error hover]
        exact lapses_refl db
      · rw [bind_of_ok hover]
        split_ifs
        · exact lapses_expire hmem hstatus
        · exact lapses_refl db
    · exact lapses_refl db

/-- The cancellation of the customer API does not look at the status. -/
theorem cancelReservation_cases (db : Db) (reservationId userId : ℕ) :
    (((cancelReservation reservationId userId).call db).2 = db ∧
      ∀ r ∈ db.reservations, r.id = reservationId → r.userId ≠ userId) ∨
    ∃ r ∈ db.reservations, r.id = reservationId ∧ r.userId = userId ∧
      ((cancelReservation reservationId userId).call db).2 = save (asStatus "CANCELLED" r) db := by
  unfold Tx.call cancelReservation
  rcases userReservation_cases db reservationId userId with
    ⟨⟨e, hrun⟩, hnone⟩ | ⟨r, hmem, hid, huser, hrun⟩
  · rw [bind_of_error hrun]
    exact .inl ⟨rfl, hnone⟩
  · rw [bind_of_ok hrun]
    exact .inr ⟨r, hmem, hid, huser, rfl⟩

theorem checkExisting_cases (db : Db) (now : ℕ) (naive : Bool) (userId : ℕ) :
    ((∃ e, checkExisting naive now userId (.fresh db) = (.error e, .fresh db)) ∧
      ¬ ∀ r ∈ activeOf userId db, naive = false ∧ r.endTime < now) ∨
    ∃ db', checkExisting naive now userId (.fresh db) = (.ok (), .fresh db') ∧ Lapses db db' ∧
      (∀ r ∈ db.reservations, Live now r → r ∈ db'.reservations) ∧
      ∀ r ∈ activeOf userId db, naive = false ∧ r.endTime < now := by
  unfold checkExisting
  rw [look_bind, Session.working_fresh]
  rcases hactive : activeOf userId db with _ | r
  · exact .inr ⟨db, rfl, lapses_refl db, fun r hr _ => hr, fun r hr => by cases hr⟩
  · obtain ⟨hmem, -, hstatus⟩ := activeOf_mem hactive
    dsimp only
    rcases overdue_cases db now naive r with ⟨e, hover, hnaive⟩ | ⟨hover, hnaive⟩
    · rw [bind_of_error hover]
      refine .inl ⟨⟨e, rfl⟩, fun h => ?_⟩
      rw [(h r rfl).1] at hnaive
      cases hnaive
    · rw [bind_of_ok hover]
      by_cases hlt : r.endTime < now
      · rw [if_pos (decide_eq_true hlt)]
        refine .inr ⟨_, rfl, lapses_expire hmem hstatus, fun x hx hlive => ?_, fun x hx => ?_⟩
        · refine Table.mem_set.mpr (.inl ⟨hx, fun hid => ?_⟩)
          rw [Table.eq_of_key hx hmem hid] at hlive
          have := hlive.2
          omega
        · cases hx
          exact ⟨hnaive, hlt⟩
      · rw [if_neg (by simpa using hlt)]
        exact .inl ⟨⟨_, rfl⟩, fun h => hlt (h r rfl).2⟩

theorem reserveBattery_cases (db : Db) (now : ℕ) (naive : Bool) (site : Site)
    (userId stationId : ℕ) (durationMinutes : ℤ)
    (batteryType : Option String) :
    (¬ Accepts naive now site userId stationId db ∧ Lapses db
      ((reserveBattery naive now site userId stationId durationMinutes batteryType).call db).2) ∨
    Accepts naive now site userId stationId db ∧ ∃ db', Lapses db db' ∧
      (∀ r ∈ db.reservations, Live now r → r ∈ db'.reservations) ∧
      ((reserveBattery naive now site userId stationId durationMinutes batteryType).call db).2 =
        activated now userId stationId durationMinutes db' := by
  unfold Tx.call reserveBattery
  rcases checkExisting_cases db now naive userId with
    ⟨⟨e, hrun⟩, hnot⟩ | ⟨db', hrun, hlapses, hkeep, hall⟩
  · rw [bind_of_error hrun]
    exact .inl ⟨fun h => hnot h.2, lapses_refl db⟩
  · rw [bind_of_ok hrun]
    rcases hstation : site.stations.get? stationId with _ | station
    · rw [demand_bind_none rfl]
      refine .inl ⟨fun h => ?_, hlapses⟩
      rw [Accepts, hstation] at h
      exact absurd h.1 (by simp)
    · rw [demand_bind rfl]
      exact .inr ⟨⟨hstation ▸ rfl, hall⟩, db', hlapses, hkeep, rfl⟩

theorem live_newActive {userId stationId id : ℕ} {durationMinutes : ℤ} :
    Live now (newActive now userId stationId durationMinutes id) ↔ 0 < durationMinutes := by
  have hopen : Open (newActive now userId stationId durationMinutes id).status := .inr rfl
  rw [Live, and_iff_right hopen]
  show now < (now + durationMinutes * minute).toNat ↔ _
  unfold minute
  omega

/-- After the request the reservations are in order, and the closed ones are as they were. -/
def Consistent (now : ℕ) (db db' : Db) : Prop :=
  LiveOnce now db'.reservations ∧ Settled db.reservations db'.reservations

theorem lapses_consistent (h : Lapses db db') (hknown : AllKnown db.reservations)
    (hlive : LiveOnce now db.reservations) : AllKnown db'.reservations ∧ Consistent now db db' :=
  ⟨h.evolves.allKnown known_of_expired hknown, h.evolves.liveOnce hlive, h.evolves.settled⟩

theorem reserveBattery_iff (hknown : AllKnown db.reservations)
    (hlive : LiveOnce now db.reservations)
    (naive : Bool) (site : Site) (userId stationId : ℕ) (durationMinutes : ℤ)
    (batteryType : Option String) :
    AllKnown ((reserveBattery naive now site userId stationId durationMinutes
        batteryType).call db).2.reservations ∧
      (Consistent now db ((reserveBattery naive now site userId stationId durationMinutes
          batteryType).call db).2 ↔
        Agrees naive now db
          (.customer (.reserve site userId stationId durationMinutes batteryType))) := by
  rcases reserveBattery_cases db now naive site userId stationId durationMinutes
    batteryType with ⟨hnot, hlapses⟩ | ⟨haccepts, db', hlapses, hkeep, hcall⟩
  · obtain ⟨hknown', hconsistent⟩ := lapses_consistent hlapses hknown hlive
    exact ⟨hknown', iff_of_true hconsistent fun h => absurd h hnot⟩
  · obtain ⟨hknown', hlive', hsettled⟩ := lapses_consistent hlapses hknown hlive
    have hkey := key_newActive now userId stationId durationMinutes
    rw [hcall]
    refine ⟨fun r hr => ?_, ?_, ?_⟩
    · rcases (Table.mem_add_mk hkey).mp hr with hr | rfl
      · exact hknown' r hr
      · exact .inl (.inr rfl)
    · rintro ⟨honce, -⟩ - hpositive ⟨r, hr, huser, hl⟩
      have hmem := hkeep r hr hl
      have hsame := honce r ((Table.mem_add_mk hkey).mpr (.inl hmem)) _
        ((Table.mem_add_mk hkey).mpr (.inr rfl)) hl (live_newActive.mpr hpositive) (.inl huser)
      have hlt : r.id < db'.reservations.freshKey := Table.key_lt_freshKey hmem
      rw [hsame] at hlt
      exact absurd hlt (lt_irrefl _)
    · intro hagrees
      refine ⟨hlive'.add hkey fun hnew r hr hl hcontend => ?_, hsettled.trans (settled_add _ hkey)⟩
      obtain ⟨x, hx, hsame, hmoves⟩ := hlapses.evolves.origin r hr
      rcases hcontend with huser | ⟨b, -, hb⟩
      · exact hagrees haccepts (live_newActive.mp hnew)
          ⟨x, hx, hsame.user.symm.trans huser, live_of_moves hsame hmoves hl⟩
      · cases hb

theorem cancelReservation_iff (hknown : AllKnown db.reservations)
    (hlive : LiveOnce now db.reservations)
    (naive : Bool) (reservationId userId : ℕ) :
    AllKnown ((cancelReservation reservationId userId).call db).2.reservations ∧
      (Consistent now db ((cancelReservation reservationId userId).call db).2 ↔
        Agrees naive now db (.customer (.cancel reservationId userId))) := by
  rcases cancelReservation_cases db reservationId userId with
    ⟨hcall, hnone⟩ | ⟨r, hmem, hid, huser, hcall⟩
  · rw [hcall]
    refine ⟨hknown, iff_of_true ⟨hlive, settled_refl _⟩ fun r hr hrid hruser => ?_⟩
    exact absurd hruser (hnone r hr hrid)
  · rw [hcall]
    have hmem' : asStatus "CANCELLED" r ∈ (save (asStatus "CANCELLED" r) db).reservations :=
      Table.mem_set.mpr (.inr ⟨rfl, r, hmem, rfl⟩)
    refine ⟨fun x hx => ?_, ?_, fun hagrees => ?_⟩
    · rcases Table.mem_set.mp hx with ⟨hx, -⟩ | ⟨rfl, -⟩
      · exact hknown x hx
      · exact .inr (.inr (.inl rfl))
    · rintro ⟨-, hsettled⟩ x hx hxid hxuser
      obtain rfl : x = r := Table.eq_of_key hx hmem (Eq.trans hxid hid.symm)
      have hstays : ∀ s, Closed s → s ≠ "CANCELLED" → x.status ≠ s := by
        rintro s hclosed hne rfl
        obtain ⟨x', hx', hid', hstatus⟩ := hsettled x hx hclosed
        rw [Table.eq_of_key hx' hmem' hid'] at hstatus
        exact hne hstatus.symm
      exact ⟨hstays _ (.inl rfl) (by decide), hstays _ (.inr (.inr rfl)) (by decide)⟩
    · obtain ⟨hcompleted, hexpired⟩ := hagrees r hmem hid huser
      have hmoves : Moves Known r.status "CANCELLED" := by
        rcases hknown r hmem with hopen | hstatus | hstatus | hstatus
        · exact .inr ⟨hopen, .inr (.inr (.inl rfl))⟩
        · exact absurd hstatus hcompleted
        · exact .inl hstatus.symm
        · exact absurd hstatus hexpired
      have hevolves : Evolves Known db.reservations
          (db.reservations.set (asStatus "CANCELLED" r)) :=
        evolves_set hmem ⟨rfl, rfl, rfl, rfl⟩ hmoves
      exact ⟨hevolves.liveOnce hlive, hevolves.settled⟩

/-- **Every request** leaves the reservations consistent if and only if it meets its condition. -/
theorem requestStep_iff [Casing] [Capitals] (hknown : AllKnown db.reservations)
    (hlive : LiveOnce now db.reservations) (naive : Bool) (request : Request) :
    AllKnown (requestStep naive now db request).reservations ∧
      (Consistent now db (requestStep naive now db request) ↔ Agrees naive now db request) := by
  cases request with
  | booking request =>
    obtain ⟨hknown', hconsistent⟩ :=
      outcome_consistent (bookingStep_outcome hknown now request) hknown hlive
    exact ⟨hknown', iff_of_true hconsistent trivial⟩
  | customer request =>
    cases request with
    | reserve site userId stationId durationMinutes batteryType =>
      exact reserveBattery_iff hknown hlive naive site userId stationId durationMinutes batteryType
    | active site userId =>
      obtain ⟨hknown', hconsistent⟩ :=
        lapses_consistent (getActiveReservation_lapses naive site userId) hknown hlive
      exact ⟨hknown', iff_of_true hconsistent trivial⟩
    | cancel reservationId userId =>
      exact cancelReservation_iff hknown hlive naive reservationId userId
    | status reservationId userId =>
      obtain ⟨hknown', hconsistent⟩ :=
        lapses_consistent (getReservationStatus_lapses naive reservationId userId) hknown hlive
      exact ⟨hknown', iff_of_true hconsistent trivial⟩

end

/-! ## Runs -/

/-- In every state of the run each user and each battery has at most one live reservation, and what
is closed in one state is as it was in all later ones. -/
def RunConsistent [Casing] (naive : Bool) (w : World) (events : List Event) : Prop :=
  ∀ p q r, events = p ++ q ++ r →
    LiveOnce (run (step naive) w p).clock (run (step naive) w p).db.reservations ∧
      Settled (run (step naive) w p).db.reservations (run (step naive) w (p ++ q)).db.reservations

/-- **The reservations are consistent** in a run if and only if each of its requests meets its
condition. -/
theorem consistent_iff [Casing] [Capitals] (naive : Bool) {w : World}
    (hknown : AllKnown w.db.reservations) (hlive : LiveOnce w.clock w.db.reservations)
    (events : List Event) : RunConsistent naive w events ↔
      Along (step naive) (fun w e => Agrees naive (w.clock + e.elapsed) w.db e.request)
        w events := by
  have hstep : ∀ (w : World) (e : Event), AllKnown w.db.reservations →
      LiveOnce w.clock w.db.reservations →
      AllKnown (step naive w e).db.reservations ∧
        (LiveOnce (step naive w e).clock (step naive w e).db.reservations ∧
            Settled w.db.reservations (step naive w e).db.reservations ↔
          Agrees naive (w.clock + e.elapsed) w.db e.request) := fun w e hknown hlive =>
    requestStep_iff hknown (hlive.mono (Nat.le_add_right _ _)) naive e.request
  exact kept_iff_along (J := fun w : World => AllKnown w.db.reservations)
    (I := fun w => LiveOnce w.clock w.db.reservations)
    (R := fun w w' : World => Settled w.db.reservations w'.db.reservations)
    (fun w => settled_refl _) (fun h h' => h.trans h') (fun w e hj hi => (hstep w e hj hi).1)
    (fun w e hj hi => (hstep w e hj hi).2) hknown hlive events

def opening : World := ⟨0, noReservations⟩

theorem opening_known : AllKnown opening.db.reservations :=
  fun r hr => absurd hr (Table.not_mem_empty r)

theorem opening_live : LiveOnce opening.clock opening.db.reservations :=
  fun r hr => absurd hr (Table.not_mem_empty r)

/-- A booking is created and paid. -/
def bookAndPay : List Event :=
  [⟨1, .booking (.create oneBattery 1 1)⟩, ⟨5 * minute, .booking (.pay 1 1 none)⟩]

theorem consistent_iff_sample :
    (RunConsistent false opening bookAndPay ↔
      Along (step false) (fun w e => Agrees false (w.clock + e.elapsed) w.db e.request) opening
        bookAndPay) ∧
      ∃ r ∈ (run (step false) opening bookAndPay).db.reservations, r.status = "ACTIVE" := by
  refine ⟨consistent_iff false opening_known opening_live bookAndPay, ?_⟩
  decide +kernel

/-- A user with a pending booking reserves through the customer API. -/
def bookAndReserve : List Event :=
  [⟨1, .booking (.create oneBattery 1 1)⟩, ⟨minute, .customer (.reserve oneBattery 1 1 15 none)⟩]

/-- An expired booking is cancelled through the customer API. -/
def expireAndCancel : List Event :=
  [⟨1, .booking (.create oneBattery 1 1)⟩, ⟨31 * minute, .booking (.list 1)⟩,
    ⟨1, .customer (.cancel 1 1)⟩]

/-- Two live reservations of one user, and a closed reservation that changes. -/
theorem apis_disagree : ¬ RunConsistent false opening bookAndReserve ∧
    ¬ RunConsistent false opening expireAndCancel := by
  have htwo : ∃ r ∈ (run (step false) opening bookAndReserve).db.reservations,
      ∃ r' ∈ (run (step false) opening bookAndReserve).db.reservations,
        Live (run (step false) opening bookAndReserve).clock r ∧
        Live (run (step false) opening bookAndReserve).clock r' ∧ r.userId =
          r'.userId ∧ r ≠ r' := by
    decide +kernel
  have hexpired : ∃ r ∈ (run (step false) opening (expireAndCancel.take 2)).db.reservations,
      Closed r.status ∧ ∀ r' ∈ (run (step false) opening expireAndCancel).db.reservations,
        r'.id = r.id → r'.status ≠ r.status := by
    decide +kernel
  constructor
  · intro h
    obtain ⟨r, hr, r', hr', hl, hl', huser, hne⟩ := htwo
    exact hne ((h bookAndReserve [] [] rfl).1 r hr r' hr' hl hl' (.inl huser))
  · intro h
    obtain ⟨r, hr, hclosed, hchanged⟩ := hexpired
    obtain ⟨-, hsettled⟩ := h (expireAndCancel.take 2) (expireAndCancel.drop 2) [] rfl
    rw [List.take_append_drop] at hsettled
    obtain ⟨r', hr', hid, hstatus⟩ := hsettled r hr hclosed
    exact hchanged r' hr' hid hstatus

end WezuBackend.Bookings.TwoApis
