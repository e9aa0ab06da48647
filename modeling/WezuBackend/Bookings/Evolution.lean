import WezuBackend.Bookings.Reservations

/-!
# How reservations evolve

`Evolves T t t'`: the rows of `t'` are those of `t`, each with its user, battery and end, and only a
pending or active one may have another status, one of `T`.  So a table that evolves has no new live
rows (`Evolves.liveOnce`) and leaves the closed ones alone (`Evolves.settled`).

Of the endpoints of the bookings API only the creation adds rows, and each write of a status follows
`is_transition_allowed` (`bookingStep_outcome`).
-/

namespace WezuBackend.Bookings.Evolution

open Lib.Tables Lib.Atomicity Lib.Atomicity.Tx Core.Base Core.Text Core.Letters Bookings.Payment
open Bookings.Reservations

/-! ## Statuses -/

def Closed (status : String) : Prop :=
  status = "COMPLETED" ∨ status = "CANCELLED" ∨ status = "EXPIRED"

instance (status : String) : Decidable (Closed status) := by
  unfold Closed
  infer_instance

def Known (status : String) : Prop := Open status ∨ Closed status

variable {status : String}

theorem not_open_of_closed (h : Closed status) : ¬ Open status := by
  rcases h with rfl | rfl | rfl <;> decide

theorem known_of_expired (s : String) (h : s = "EXPIRED") : Known s := .inr (.inr (.inr h))

theorem capital_of_known (h : Known status) :
    IsCapital status ∧ strip status = status := by
  rcases h with (rfl | rfl) | (rfl | rfl | rfl) <;> decide +kernel

theorem normal_of_known [Casing] [Capitals] (h : Known status) :
    normal status = status :=
  normal_capital (capital_of_known h).1 (capital_of_known h).2

variable {current target : String}

theorem allowed_cases (h : target ∈ allowedTransitions current) :
    (current = "PENDING" ∧ (target = "ACTIVE" ∨ target = "CANCELLED" ∨ target = "EXPIRED")) ∨
      (current = "ACTIVE" ∧ (target = "COMPLETED" ∨ target = "CANCELLED")) := by
  unfold allowedTransitions at h
  split_ifs at h with hpending hactive
  · exact .inl ⟨hpending, by simpa using h⟩
  · exact .inr ⟨hactive, by simpa using h⟩
  · cases h

theorem open_of_allowed (h : target ∈ allowedTransitions current) :
    Open current ∧ Known target := by
  unfold Known Open Closed
  have hcases := allowed_cases h
  tauto

theorem transition_of_allowed [Casing]
    (h : isTransitionAllowed (normal current) (normal target) = true) :
    Open (normal current) ∧ Known (normal target) := by
  unfold isTransitionAllowed at h
  rw [normal_normal, normal_normal, List.contains_iff_mem] at h
  exact open_of_allowed h

/-! ## Evolution -/

/-- The columns that stay. -/
structure Same (r r' : BatteryReservation) : Prop where
  id : r'.id = r.id
  user : r'.userId = r.userId
  battery : r'.batteryId = r.batteryId
  endTime : r'.endTime = r.endTime

/-- The status stays, or an open reservation gets one of `T`. -/
def Moves (T : String → Prop) (status status' : String) : Prop :=
  status' = status ∨ Open status ∧ T status'

structure Evolves (T : String → Prop) (t t' : Table BatteryReservation) : Prop where
  origin : ∀ r' ∈ t', ∃ r ∈ t, Same r r' ∧ Moves T r.status r'.status
  kept : ∀ r ∈ t, ∃ r' ∈ t', r'.id = r.id

theorem same_refl (r : BatteryReservation) : Same r r := ⟨rfl, rfl, rfl, rfl⟩

theorem Same.trans {r r' r'' : BatteryReservation} (h : Same r r') (h' : Same r' r'') :
    Same r r'' :=
  ⟨h'.id.trans h.id, h'.user.trans h.user, h'.battery.trans h.battery, h'.endTime.trans h.endTime⟩

section

variable {T : String → Prop}

theorem Moves.trans {s s' s'' : String} (h : Moves T s s') (h' : Moves T s' s'') :
    Moves T s s'' := by
  rcases h' with rfl | ⟨hopen', hmoved'⟩
  · exact h
  · rcases h with rfl | ⟨hopen, -⟩
    · exact .inr ⟨hopen', hmoved'⟩
    · exact .inr ⟨hopen, hmoved'⟩

theorem evolves_refl (t : Table BatteryReservation) : Evolves T t t :=
  ⟨fun r hr => ⟨r, hr, same_refl r, .inl rfl⟩, fun r hr => ⟨r, hr, rfl⟩⟩

variable {t t' t'' : Table BatteryReservation}

theorem Evolves.mono {T' : String → Prop} (h : Evolves T t t') (hT : ∀ s, T s → T' s) :
    Evolves T' t t' := by
  refine ⟨fun r' hr' => ?_, h.kept⟩
  obtain ⟨r, hr, hsame, heq | ⟨hopen, hmoved⟩⟩ := h.origin r' hr'
  · exact ⟨r, hr, hsame, .inl heq⟩
  · exact ⟨r, hr, hsame, .inr ⟨hopen, hT _ hmoved⟩⟩

theorem Evolves.trans (h : Evolves T t t') (h' : Evolves T t' t'') : Evolves T t t'' := by
  constructor
  · intro r'' hr''
    obtain ⟨r', hr', hsame', hmoves'⟩ := h'.origin r'' hr''
    obtain ⟨r, hr, hsame, hmoves⟩ := h.origin r' hr'
    exact ⟨r, hr, hsame.trans hsame', hmoves.trans hmoves'⟩
  · intro r hr
    obtain ⟨r', hr', hid⟩ := h.kept r hr
    obtain ⟨r'', hr'', hid'⟩ := h'.kept r' hr'
    exact ⟨r'', hr'', hid'.trans hid⟩

variable {r r' : BatteryReservation}

theorem evolves_set (hr : r ∈ t) (hsame : Same r r')
    (hmoves : Moves T r.status r'.status) : Evolves T t (t.set r') := by
  constructor
  · intro x hx
    rcases Table.mem_set.mp hx with ⟨hx, -⟩ | ⟨rfl, -⟩
    · exact ⟨x, hx, same_refl x, .inl rfl⟩
    · exact ⟨r, hr, hsame, hmoves⟩
  · intro x hx
    by_cases hid : x.id = r'.id
    · exact ⟨r', Table.mem_set.mpr (.inr ⟨rfl, r, hr, hsame.id.symm⟩), hid.symm⟩
    · exact ⟨x, Table.mem_set.mpr (.inl ⟨hx, hid⟩), rfl⟩

variable {now : ℕ}

theorem evolves_withStatus {r : BatteryReservation} (hr : r ∈ t) (hopen : Open r.status)
    (hT : T status) : Evolves T t (t.set (withStatus now status r)) :=
  evolves_set hr ⟨rfl, rfl, rfl, rfl⟩ (.inr ⟨hopen, hT⟩)

theorem evolves_update {p : BatteryReservation → Bool} {f : BatteryReservation → BatteryReservation}
    (hf : ∀ r, Row.key (f r) = Row.key r) (hsame : ∀ r, Same r (f r))
    (hmoves : ∀ r, p r = true → Moves T r.status (f r).status) : Evolves T t (t.update p f hf) := by
  have hrow : ∀ r, Same r (if p r then f r else r) ∧
      Moves T r.status (if p r then f r else r).status := by
    intro r
    split_ifs with hp
    · exact ⟨hsame r, hmoves r hp⟩
    · exact ⟨same_refl r, .inl rfl⟩
  constructor
  · intro r' hr'
    obtain ⟨r, hr, rfl⟩ := Table.mem_update.mp hr'
    exact ⟨r, hr, hrow r⟩
  · intro r hr
    exact ⟨_, Table.mem_update.mpr ⟨r, hr, rfl⟩, (hrow r).1.id⟩

/-! ## What evolution keeps -/

/-- No two live reservations are in the relation `C`. -/
def Apart (C : BatteryReservation → BatteryReservation → Prop) (now : ℕ)
    (t : Table BatteryReservation) : Prop :=
  ∀ r ∈ t, ∀ r' ∈ t, Live now r → Live now r' → C r r' → r = r'

def SharesBattery (r r' : BatteryReservation) : Prop :=
  ∃ b, r.batteryId = some b ∧ r'.batteryId = some b

def Contend (r r' : BatteryReservation) : Prop := r.userId = r'.userId ∨ SharesBattery r r'

/-- Each user and each battery has at most one live reservation. -/
def LiveOnce (now : ℕ) (t : Table BatteryReservation) : Prop := Apart Contend now t

/-- Every row has one of the five statuses. -/
def AllKnown (t : Table BatteryReservation) : Prop := ∀ r ∈ t, Known r.status

/-- The closed reservations of `t` have their status in `t'`. -/
def Settled (t t' : Table BatteryReservation) : Prop :=
  ∀ r ∈ t, Closed r.status → ∃ r' ∈ t', r'.id = r.id ∧ r'.status = r.status

theorem live_of_moves (hsame : Same r r')
    (hmoves : Moves T r.status r'.status) (h : Live now r') : Live now r := by
  refine ⟨?_, hsame.endTime ▸ h.2⟩
  rcases hmoves with heq | ⟨hopen, -⟩
  · exact heq ▸ h.1
  · exact hopen

variable {C : BatteryReservation → BatteryReservation → Prop}

theorem Evolves.apart
    (hC : ∀ {r₁ r₁' r₂ r₂'}, Same r₁ r₁' → Same r₂ r₂' → C r₁' r₂' → C r₁ r₂) (h : Evolves T t t')
    (hapart : Apart C now t) : Apart C now t' := by
  intro r₁' h₁' r₂' h₂' hl₁ hl₂ hcontend
  obtain ⟨r₁, h₁, hsame₁, hmoves₁⟩ := h.origin r₁' h₁'
  obtain ⟨r₂, h₂, hsame₂, hmoves₂⟩ := h.origin r₂' h₂'
  obtain rfl := hapart r₁ h₁ r₂ h₂ (live_of_moves hsame₁ hmoves₁ hl₁)
    (live_of_moves hsame₂ hmoves₂ hl₂) (hC hsame₁ hsame₂ hcontend)
  exact Table.eq_of_key h₁' h₂' (hsame₁.id.trans hsame₂.id.symm)

theorem SharesBattery.of_same {r₁ r₁' r₂ r₂' : BatteryReservation} (h₁ : Same r₁ r₁')
    (h₂ : Same r₂ r₂') (h : SharesBattery r₁' r₂') : SharesBattery r₁ r₂ := by
  unfold SharesBattery at h ⊢
  rwa [← h₁.battery, ← h₂.battery]

theorem Evolves.liveOnce (h : Evolves T t t') (hlive : LiveOnce now t) :
    LiveOnce now t' := by
  refine h.apart (fun h₁ h₂ hcontend => ?_) hlive
  rcases hcontend with huser | hbattery
  · exact .inl (h₁.user ▸ h₂.user ▸ huser)
  · exact .inr (hbattery.of_same h₁ h₂)

theorem Evolves.allKnown (h : Evolves T t t') (hT : ∀ s, T s → Known s) (hknown : AllKnown t) :
    AllKnown t' := by
  intro r' hr'
  obtain ⟨r, hr, -, heq | ⟨-, hmoved⟩⟩ := h.origin r' hr'
  · rw [heq]
    exact hknown r hr
  · exact hT _ hmoved

theorem Evolves.settled (h : Evolves T t t') : Settled t t' := by
  intro r hr hclosed
  obtain ⟨r', hr', hid⟩ := h.kept r hr
  obtain ⟨x, hx, hsame, hmoves⟩ := h.origin r' hr'
  obtain rfl : x = r := Table.eq_of_key hx hr (hsame.id.symm.trans hid)
  refine ⟨r', hr', hid, ?_⟩
  rcases hmoves with heq | ⟨hopen, -⟩
  · exact heq
  · exact absurd hopen (not_open_of_closed hclosed)

theorem settled_refl (t : Table BatteryReservation) : Settled t t :=
  fun r hr _ => ⟨r, hr, rfl, rfl⟩

theorem Settled.trans (h : Settled t t') (h' : Settled t' t'') : Settled t t'' := by
  intro r hr hclosed
  obtain ⟨r', hr', hid, hstatus⟩ := h r hr hclosed
  obtain ⟨r'', hr'', hid', hstatus'⟩ := h' r' hr' (hstatus ▸ hclosed)
  exact ⟨r'', hr'', hid'.trans hid, hstatus'.trans hstatus⟩

theorem Apart.mono {now now' : ℕ} (h : Apart C now t) (hle : now ≤ now') : Apart C now' t := by
  intro r hr r' hr' hl hl'
  exact h r hr r' hr' ⟨hl.1, by have := hl.2; omega⟩ ⟨hl'.1, by have := hl'.2; omega⟩

variable {mk : ℕ → BatteryReservation}

theorem Apart.add (hsymm : ∀ {r r'}, C r r' → C r' r) (h : Apart C now t)
    (hmk : ∀ k, Row.key (mk k) = k)
    (hfree : Live now (mk t.freshKey) → ∀ r ∈ t, Live now r → ¬ C r (mk t.freshKey)) :
    Apart C now (t.add mk hmk) := by
  intro r hr r' hr' hl hl' hcontend
  rcases (Table.mem_add_mk hmk).mp hr with hr | rfl <;>
    rcases (Table.mem_add_mk hmk).mp hr' with hr' | rfl
  · exact h r hr r' hr' hl hl' hcontend
  · exact absurd hcontend (hfree hl' r hr hl)
  · exact absurd (hsymm hcontend) (hfree hl r' hr' hl')
  · rfl

theorem SharesBattery.symm (h : SharesBattery r r') :
    SharesBattery r' r := by
  obtain ⟨b, hb, hb'⟩ := h
  exact ⟨b, hb', hb⟩

theorem Contend.symm (h : Contend r r') : Contend r' r := by
  rcases h with huser | hbattery
  · exact .inl huser.symm
  · exact .inr hbattery.symm

theorem LiveOnce.add (h : LiveOnce now t) (hmk : ∀ k, Row.key (mk k) = k)
    (hfree : Live now (mk t.freshKey) → ∀ r ∈ t, Live now r → ¬ Contend r (mk t.freshKey)) :
    LiveOnce now (t.add mk hmk) :=
  Apart.add Contend.symm h hmk hfree

theorem settled_add (t : Table BatteryReservation)
    (hmk : ∀ k, Row.key (mk k) = k) : Settled t (t.add mk hmk) :=
  fun r hr _ => ⟨r, (Table.mem_add_mk hmk).mpr (.inl hr), rfl, rfl⟩

end

/-! ## The bookings API -/

theorem not_live_of_free {now batteryId : ℕ} {db : Db} (h : batteryId ∉ reservedIds now db) :
    ∀ r ∈ db.reservations, Live now r → r.batteryId ≠ some batteryId := by
  intro r hr hlive hbattery
  refine h (List.mem_filterMap.mpr ⟨r, Table.mem_filter.mpr ⟨hr, ?_⟩, hbattery⟩)
  exact decide_eq_true hlive

/-- Nothing but reservations that expired. -/
structure Lapses (db db' : Db) : Prop where
  evolves : Evolves (· = "EXPIRED") db.reservations db'.reservations
  rest : db' = { db with reservations := db'.reservations }

theorem lapses_refl (db : Db) : Lapses db db := ⟨evolves_refl _, rfl⟩

structure Found (now bookingId userId : ℕ) (db : Db) (booking : BatteryReservation) (db' : Db) :
    Prop
    extends Lapses db db' where
  mem : booking ∈ db'.reservations
  id : booking.id = bookingId
  user : booking.userId = userId
  pending : booking.status = "PENDING" → now < booking.endTime ∧ db' = db

theorem releaseExpiredReservations_ok (now userId : ℕ) (db : Db) :
    ∃ n db', releaseExpiredReservations now userId (.fresh db) = (.ok n, .fresh db') ∧
      Lapses db db' := by
  unfold releaseExpiredReservations
  rw [look_bind, Session.working_fresh]
  by_cases hrows : db.reservations.filter (lapsed now userId) ≠ []
  · simp only [if_pos hrows]
    refine ⟨_, rewrite (lapsed now userId) (expired now) (key_expired now) db, rfl, ?_, rfl⟩
    refine evolves_update (key_expired now) (fun r => ⟨rfl, rfl, rfl, rfl⟩) fun r hr =>
      .inr ⟨?_, rfl⟩
    simp only [lapsed, Bool.and_eq_true, decide_eq_true_eq] at hr
    exact .inl hr.1.1
  · simp only [if_neg hrows]
    exact ⟨_, db, rfl, lapses_refl db⟩

section

variable [Casing] [Capitals] {db : Db}

variable {db' : Db}

variable {booking : BatteryReservation}

theorem Found.normal_status {now bookingId userId : ℕ}
    (h : Found now bookingId userId db booking db') (hknown : AllKnown db.reservations) :
    normal booking.status = booking.status :=
  normal_of_known (h.evolves.allKnown known_of_expired hknown booking h.mem)

theorem currentBooking_cases (hknown : AllKnown db.reservations) (now bookingId userId : ℕ) :
    (∃ e, currentBooking now bookingId userId (.fresh db) = (.error e, .fresh db)) ∨
    ∃ booking db', currentBooking now bookingId userId (.fresh db) = (.ok booking, .fresh db') ∧
      Found now bookingId userId db booking db' := by
  unfold currentBooking
  rcases hget : db.reservations.get? bookingId with _ | booking
  · refine .inl ⟨.http 404 "Booking not found", bind_of_error ?_⟩
    rw [getUserBookingOr404, look_bind, Session.working_fresh, demand_bind_none hget]
  · by_cases huser : booking.userId = userId
    · have hrun : getUserBookingOr404 bookingId userId (.fresh db) = (.ok booking, .fresh db) := by
        rw [getUserBookingOr404, look_bind, Session.working_fresh, demand_bind hget,
          ensure_bind huser]
        rfl
      obtain ⟨hmem, hid⟩ := Table.get?_eq_some.mp hget
      have hnormal := normal_of_known (hknown booking hmem)
      refine .inr ?_
      rw [bind_of_ok hrun]
      unfold markExpiredIfDue
      rw [hnormal]
      by_cases hpending : booking.status = "PENDING"
      · rw [if_neg (not_not.mpr hpending)]
        by_cases hdue : now < booking.endTime
        · rw [if_pos hdue]
          exact ⟨booking, db, rfl, ⟨lapses_refl db, hmem, hid, huser, fun _ => ⟨hdue, rfl⟩⟩⟩
        · rw [if_neg hdue]
          refine ⟨expired now booking, save (expired now booking) db, rfl, ⟨?_, rfl⟩, ?_, hid,
            huser, fun h => absurd h (by decide : ("EXPIRED" : String) ≠ "PENDING")⟩
          · exact evolves_set hmem ⟨rfl, rfl, rfl, rfl⟩ (.inr ⟨.inl hpending, rfl⟩)
          · exact Table.mem_set.mpr (.inr ⟨rfl, booking, hmem, rfl⟩)
      · rw [if_pos hpending]
        exact ⟨booking, db, rfl, ⟨lapses_refl db, hmem, hid, huser, fun h => absurd h hpending⟩⟩
    · refine .inl ⟨.http 404 "Booking not found", bind_of_error ?_⟩
      rw [getUserBookingOr404, look_bind, Session.working_fresh, demand_bind hget,
        ensure_bind_not huser]

inductive Outcome (now : ℕ) (db : Db) : BookingRequest → Db → Prop
  | lapsed {request db'} (h : Evolves (· = "EXPIRED") db.reservations db'.reservations)
      (hbalance : ∀ k, userBalance k db' = userBalance k db) : Outcome now db request db'
  | created {site userId stationId batteryId db'} (h : Lapses db db')
      (hfree : ¬ HasLive now userId db') (hbattery : batteryId ∉ reservedIds now db') :
      Outcome now db (.create site userId stationId) (reserved now userId stationId batteryId db')
  | updated {bookingId userId status booking db'} (h : Found now bookingId userId db booking db')
      (htext : status ≠ "") (ht : normal status ∈ allowedTransitions booking.status) :
      Outcome now db (.update bookingId userId (some status))
        (save (withStatus now (normal status) booking) db')
  | cancelled {bookingId userId booking db'} (h : Found now bookingId userId db booking db')
      (hopen : Open booking.status) :
      Outcome now db (.cancel bookingId userId) (save (withStatus now "CANCELLED" booking) db')
  | paid {bookingId userId paymentIn booking}
      (h : Payable db now bookingId paymentIn userId booking)
      (hpasses : Passes (walletFor userId db).2 (walletFor userId db).1 (paymentAmount paymentIn)) :
      Outcome now db (.pay bookingId userId paymentIn)
        (paid now booking (walletFor userId db).1 (paymentAmount paymentIn) (walletFor userId db).2)

variable {now : ℕ} {request : BookingRequest}

omit [Capitals] in
theorem Lapses.outcome (h : Lapses db db') :
    Outcome now db request db' :=
  .lapsed h.evolves fun k => by rw [h.rest]; rfl

omit [Casing] [Capitals] in
theorem pickBattery_free {site : Site} {stationId : ℕ} {ids : List ℕ}
    {battery : Fleet.Model.Battery}
    (h : pickBattery site stationId ids = some battery) : battery.id ∉ ids := by
  obtain ⟨-, hprop⟩ := Table.mem_filter.mp (firstBy_mem h)
  simp only [Bool.and_eq_true, Bool.not_eq_true'] at hprop
  intro hmem
  rw [List.contains_iff_mem.mpr hmem] at hprop
  exact absurd hprop.2 (by decide)

omit [Capitals] in
theorem createBooking_outcome (now : ℕ) (site : Site) (userId stationId : ℕ) :
    Outcome now db (.create site userId stationId)
      ((createBooking now site userId stationId).call db).2 := by
  obtain ⟨n, db', hrun, hlapses⟩ := releaseExpiredReservations_ok now userId db
  have herror : ∀ e, createReservation now site userId stationId (.fresh db) =
      (.error e, .fresh db') → Outcome now db (.create site userId stationId)
        ((createBooking now site userId stationId).call db).2 := by
    intro e he
    unfold Tx.call createBooking
    rw [handle_of_error he]
    exact hlapses.outcome
  unfold createReservation at herror
  rw [bind_of_ok hrun] at herror
  rcases hstation : site.stations.get? stationId with _ | station
  · exact herror _ (by rw [hstation, demand_bind_none rfl])
  · rw [hstation, demand_bind rfl] at herror
    by_cases hbookable : isStationBookable station = true
    · rw [ensure_bind hbookable, look_bind, Session.working_fresh] at herror
      by_cases hlive : HasLive now userId db'
      · exact herror _ (ensure_bind_not (not_not.mpr hlive) _ _ _)
      · rw [ensure_bind hlive] at herror
        rcases hpick : pickBattery site stationId (reservedIds now db') with _ | battery
        · exact herror _ (by rw [hpick, demand_bind_none rfl])
        · have hok : createReservation now site userId stationId (.fresh db) =
              (.ok (newReservation now userId stationId battery.id db'.reservations.freshKey),
                .fresh (reserved now userId stationId battery.id db')) := by
            unfold createReservation
            rw [bind_of_ok hrun, hstation, demand_bind rfl, ensure_bind hbookable, look_bind,
              Session.working_fresh, ensure_bind hlive, hpick, demand_bind rfl]
            rfl
          unfold Tx.call createBooking
          rw [handle_of_ok hok]
          exact .created hlapses hlive (pickBattery_free hpick)
    · exact herror _ (ensure_bind_not hbookable _ _ _)

theorem updateBooking_outcome (hknown : AllKnown db.reservations) (now bookingId userId : ℕ)
    (status : Option String) : Outcome now db (.update bookingId userId status)
      ((updateBooking now bookingId userId status).call db).2 := by
  unfold Tx.call updateBooking
  rcases currentBooking_cases hknown now bookingId userId with
    ⟨e, hrun⟩ | ⟨booking, db', hrun, hfound⟩
  · rw [bind_of_error hrun]
    exact (lapses_refl db).outcome
  · rw [bind_of_ok hrun]
    have hnormal := hfound.normal_status hknown
    rcases htext : truthy status with _ | text
    · exact hfound.toLapses.outcome
    · obtain ⟨rfl, hne⟩ := truthy_eq_some.mp htext
      dsimp only
      split_ifs with hsame
      · exact hfound.toLapses.outcome
      · by_cases hallowed : isTransitionAllowed (normal booking.status) (normal text) = true
        · rw [ensure_bind hallowed]
          refine .updated hfound hne ?_
          unfold isTransitionAllowed at hallowed
          rwa [normal_normal, normal_normal, List.contains_iff_mem, hnormal] at hallowed
        · rw [ensure_bind_not hallowed]
          exact hfound.toLapses.outcome

theorem cancelBooking_outcome (hknown : AllKnown db.reservations) (now bookingId userId : ℕ) :
    Outcome now db (.cancel bookingId userId) ((cancelBooking now bookingId userId).call db).2 := by
  unfold Tx.call cancelBooking
  rcases currentBooking_cases hknown now bookingId userId with
    ⟨e, hrun⟩ | ⟨booking, db', hrun, hfound⟩
  · rw [bind_of_error hrun]
    exact (lapses_refl db).outcome
  · rw [bind_of_ok hrun]
    have hnormal := hfound.normal_status hknown
    by_cases hcancellable : normal booking.status ≠ "COMPLETED" ∧ normal booking.status ≠ "EXPIRED"
    · rw [ensure_bind hcancellable]
      split_ifs with hdone
      · exact hfound.toLapses.outcome
      · by_cases hallowed : isTransitionAllowed (normal booking.status) "CANCELLED" = true
        · rw [ensure_bind hallowed]
          have hcancel : normal "CANCELLED" = "CANCELLED" :=
            normal_of_known (.inr (.inr (.inl rfl)))
          rw [← hcancel] at hallowed
          have hopen := (transition_of_allowed hallowed).1
          rw [hnormal] at hopen
          exact .cancelled hfound hopen
        · rw [ensure_bind_not hallowed]
          exact hfound.toLapses.outcome
    · rw [ensure_bind_not hcancellable]
      exact hfound.toLapses.outcome

omit [Capitals] in
theorem settle_outcome {now bookingId userId : ℕ} {paymentIn : Option BookingPaymentRequest}
    (h : Payable db now bookingId paymentIn userId booking) :
    Outcome now db (.pay bookingId userId paymentIn)
      ((paymentWallet userId >>= fun wallet => settle now booking wallet (paymentAmount paymentIn) :
        BookingTx BookingPaymentResponse) (.fresh db)).2.committed := by
  rw [bind_of_ok (paymentWallet_eq db userId)]
  by_cases hpasses :
      Passes (walletFor userId db).2 (walletFor userId db).1 (paymentAmount paymentIn)
  · rw [settle_of_passes hpasses]
    exact .paid h hpasses
  · obtain ⟨e, hrun⟩ := settle_of_not_passes now booking hpasses
    rw [hrun]
    exact .lapsed (by rw [Session.committed_fresh, reservations_walletFor]; exact evolves_refl _)
      fun k => userBalance_walletFor userId k db

theorem payForBooking_outcome (hknown : AllKnown db.reservations) (now bookingId userId : ℕ)
    (paymentIn : Option BookingPaymentRequest) : Outcome now db (.pay bookingId userId paymentIn)
      ((payForBooking now bookingId paymentIn userId).call db).2 := by
  unfold Tx.call
  rw [payForBooking, ← seq_assoc]
  have hcases := currentBooking_cases hknown now bookingId userId
  unfold currentBooking at hcases
  rcases hcases with ⟨e, hrun⟩ | ⟨booking, db', hrun, hfound⟩
  · rw [bind_of_error hrun]
    exact (lapses_refl db).outcome
  · have hsame : Outcome now db (.pay bookingId userId paymentIn) db' := hfound.toLapses.outcome
    rw [bind_of_ok hrun, look_bind]
    split_ifs
    · exact hsame
    · by_cases hpending : normal booking.status = "PENDING"
      · have hnormal := hfound.normal_status hknown
        obtain ⟨hdue, rfl⟩ := hfound.pending (hnormal ▸ hpending)
        rw [ensure_bind hpending]
        by_cases hmethod : paymentMethod paymentIn = "wallet"
        · rw [ensure_bind hmethod]
          by_cases hpos : ∀ a ∈ paymentAmount paymentIn, 0 < a
          · rw [ensure_bind hpos]
            by_cases hlimit : ∀ a ∈ paymentAmount paymentIn, a ≤ 10000000
            · rw [ensure_bind hlimit]
              have hget : db'.reservations.get? bookingId = some booking :=
                Table.get?_eq_some.mpr ⟨hfound.mem, hfound.id⟩
              exact settle_outcome ⟨hget, hfound.user, hpending, hdue, hmethod, hpos, hlimit⟩
            · rw [ensure_bind_not hlimit]
              exact hsame
          · rw [ensure_bind_not hpos]
            exact hsame
        · rw [ensure_bind_not hmethod]
          exact hsame
      · rw [ensure_bind_not hpending]
        exact hsame

omit [Capitals] in
theorem listMyBookings_outcome (now userId : ℕ) :
    Outcome now db (.list userId) ((listMyBookings now userId).call db).2 := by
  obtain ⟨n, db', hrun, hlapses⟩ := releaseExpiredReservations_ok now userId db
  unfold Tx.call listMyBookings
  rw [bind_of_ok hrun]
  exact hlapses.outcome

theorem getBookingDetails_outcome (hknown : AllKnown db.reservations) (now bookingId userId : ℕ) :
    Outcome now db (.get bookingId userId)
      ((getBookingDetails now bookingId userId).call db).2 := by
  unfold Tx.call getBookingDetails
  rcases currentBooking_cases hknown now bookingId userId with
    ⟨e, hrun⟩ | ⟨booking, db', hrun, hfound⟩
  · rw [hrun]
    exact (lapses_refl db).outcome
  · rw [hrun]
    exact hfound.toLapses.outcome

theorem sendBookingReminder_outcome (hknown : AllKnown db.reservations) (now bookingId userId : ℕ) :
    Outcome now db (.remind bookingId userId)
      ((sendBookingReminder now bookingId userId).call db).2 := by
  unfold Tx.call sendBookingReminder
  rcases currentBooking_cases hknown now bookingId userId with
    ⟨e, hrun⟩ | ⟨booking, db', hrun, hfound⟩
  · rw [bind_of_error hrun]
    exact (lapses_refl db).outcome
  · rw [bind_of_ok hrun]
    by_cases hexpired : normal booking.status ≠ "EXPIRED"
    · rw [ensure_bind hexpired]
      exact hfound.toLapses.outcome
    · rw [ensure_bind_not hexpired]
      exact hfound.toLapses.outcome

theorem bookingStep_outcome (hknown : AllKnown db.reservations) (now : ℕ)
    (request : BookingRequest) :
    Outcome now db request (bookingStep now db request) := by
  cases request with
  | create site userId stationId => exact createBooking_outcome now site userId stationId
  | list userId => exact listMyBookings_outcome now userId
  | get bookingId userId => exact getBookingDetails_outcome hknown now bookingId userId
  | update bookingId userId status => exact updateBooking_outcome hknown now bookingId userId status
  | cancel bookingId userId => exact cancelBooking_outcome hknown now bookingId userId
  | remind bookingId userId => exact sendBookingReminder_outcome hknown now bookingId userId
  | pay bookingId userId paymentIn =>
    exact payForBooking_outcome hknown now bookingId userId paymentIn

theorem Outcome.evolves_or_reserved
    (h : Outcome now db request db') (hknown : AllKnown db.reservations) :
    Evolves Known db.reservations db'.reservations ∨
      ∃ userId stationId batteryId db₁, Lapses db db₁ ∧ ¬ HasLive now userId db₁ ∧
        batteryId ∉ reservedIds now db₁ ∧ db' = reserved now userId stationId batteryId db₁ := by
  cases h with
  | lapsed hlapsed hbalance => exact .inl (hlapsed.mono known_of_expired)
  | created hlapses hfree hbattery => exact .inr ⟨_, _, _, _, hlapses, hfree, hbattery, rfl⟩
  | updated hfound htext ht =>
    refine .inl ((hfound.evolves.mono known_of_expired).trans ?_)
    exact evolves_withStatus hfound.mem (open_of_allowed ht).1 (open_of_allowed ht).2
  | cancelled hfound hopen =>
    refine .inl ((hfound.evolves.mono known_of_expired).trans ?_)
    exact evolves_withStatus hfound.mem hopen (.inr (.inr (.inl rfl)))
  | @paid bookingId userId paymentIn booking hpayable hpasses =>
    obtain ⟨hget, -, hpending, -⟩ := hpayable
    have hmem := (Table.get?_eq_some.mp hget).1
    rw [normal_of_known (hknown booking hmem)] at hpending
    rw [← reservations_walletFor userId db] at hmem ⊢
    exact .inl (evolves_withStatus hmem (.inl hpending) (.inl (.inr rfl)))

theorem Outcome.allKnown (h : Outcome now db request db') (hknown : AllKnown db.reservations) :
    AllKnown db'.reservations := by
  rcases h.evolves_or_reserved hknown with
    hevolves | ⟨userId, stationId, batteryId, db₁, hlapses, -, -, rfl⟩
  · exact hevolves.allKnown (fun _ hs => hs) hknown
  · intro r hr
    rcases (Table.mem_add_mk (key_newReservation now userId stationId batteryId)).mp
      hr with hr | rfl
    · exact hlapses.evolves.allKnown known_of_expired hknown r hr
    · exact .inl (.inl rfl)

end

end WezuBackend.Bookings.Evolution
