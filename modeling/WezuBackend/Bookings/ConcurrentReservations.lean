import WezuBackend.Bookings.Evolution
import WezuBackend.Lib.Interleaving

/-!
# Concurrent bookings

Calls of `create_reservation` run side by side.  A call reads which batteries are held, picks one
that is not, and commits its reservation; nothing of this is locked.  The clock ticks between the
steps.

Only a commit adds a live reservation (`advance_steps`).  So a battery comes into two live
reservations by a commit of a battery that is held.  Its call found the battery free when it read;
another call has taken it in between (`Overtaken`, by `interference_within`).
-/

namespace WezuBackend.Bookings.ConcurrentReservations

open Lib.Tables Lib.Runs Lib.Interleaving Lib.Atomicity Lib.Atomicity.Tx Core.Base Bookings.Payment
open Bookings.Reservations Bookings.Evolution

/-! ## A call, step by step -/

/-- The arguments, and the stations and batteries that the call reads. -/
structure Call where
  site : Site
  userId : ℕ
  stationId : ℕ

/-- The committed rows, and the time. -/
structure Store where
  clock : ℕ
  db : Db

/-- Where a call is in `create_reservation`. -/
inductive Stage where
  | called
  /-- the overdue reservations of the user are released -/
  | released
  /-- the station takes bookings, and the user has no live reservation -/
  | checked (now : ℕ)
  /-- the held batteries are read -/
  | read (now : ℕ) (reserved : List ℕ)
  | picked (now batteryId : ℕ)
  /-- the reservation is added to the session -/
  | added (now batteryId : ℕ)
  | ended (result : Except Exc BatteryReservation)

def refuse (store : Store) (e : Exc) : Store × Stage := (store, .ended (.error e))

/-- The checks on the station and on the user's reservations. -/
def check (call : Call) (store : Store) : Store × Stage :=
  match call.site.stations.get? call.stationId with
  | none => refuse store (.valueError "Station not found")
  | some station =>
    if isStationBookable station then
      if HasLive store.clock call.userId store.db then
        refuse store (.valueError "User already has an active reservation")
      else (store, .checked store.clock)
    else refuse store (.valueError "Station is currently not accepting bookings")

def pick (call : Call) (now : ℕ) (reserved : List ℕ) (store : Store) : Store × Stage :=
  match pickBattery call.site call.stationId reserved with
  | none => refuse store (.valueError "No bookable batteries available at this station")
  | some battery => (store, .picked now battery.id)

def commitReservation (call : Call) (now batteryId : ℕ) (store : Store) : Store × Stage :=
  (⟨store.clock, reserved now call.userId call.stationId batteryId store.db⟩,
    .ended (.ok (newReservation now call.userId call.stationId batteryId
      store.db.reservations.freshKey)))

/-- The next step of a call.  The database may raise an error at every step. -/
def advance (call : Call) (raises : Stage → Option Exc) (store : Store) (stage : Stage) :
    Store × Stage :=
  match stage, raises stage with
  | .ended result, _ => (store, .ended result)
  | _, some e => refuse store e
  | .called, none =>
    (⟨store.clock, ((releaseExpiredReservations store.clock call.userId).call store.db).2⟩,
      .released)
  | .released, none => check call store
  | .checked now, none => (store, .read now (reservedIds now store.db))
  | .read now reserved, none => pick call now reserved store
  | .picked now batteryId, none => (store, .added now batteryId)
  | .added now batteryId, none => commitReservation call now batteryId store

inductive Steps (call : Call) (store : Store) : Stage → Store × Stage → Prop
  | stays {result} : Steps call store (.ended result) (store, .ended result)
  | refused {stage} (e : Exc) : Steps call store stage (refuse store e)
  | released {db} (h : Lapses store.db db) : Steps call store .called (⟨store.clock, db⟩, .released)
  | checked : Steps call store .released (store, .checked store.clock)
  | read {now} : Steps call store (.checked now) (store, .read now (reservedIds now store.db))
  | picked {now reserved batteryId} (h : batteryId ∉ reserved) :
      Steps call store (.read now reserved) (store, .picked now batteryId)
  | added {now batteryId} : Steps call store (.picked now batteryId) (store, .added now batteryId)
  | committed {now batteryId} :
      Steps call store (.added now batteryId) (commitReservation call now batteryId store)

theorem advance_steps (call : Call) (raises : Stage → Option Exc) (store : Store) (stage : Stage) :
    Steps call store stage (advance call raises store stage) := by
  rcases hraises : raises stage with _ | e
  · cases stage with
    | called =>
      obtain ⟨n, db, hrun, hlapses⟩ :=
        releaseExpiredReservations_ok store.clock call.userId store.db
      have hcall : ((releaseExpiredReservations store.clock call.userId).call store.db).2 = db := by
        unfold Tx.call
        rw [hrun]
        rfl
      simp only [advance, hraises, hcall]
      exact .released hlapses
    | released =>
      simp only [advance, hraises]
      unfold check
      split
      · exact .refused _
      · split_ifs
        · exact .refused _
        · exact .checked
        · exact .refused _
    | checked now =>
      simp only [advance, hraises]
      exact .read
    | read now reserved =>
      simp only [advance, hraises]
      unfold pick
      split
      · exact .refused _
      · next battery hpick => exact .picked (pickBattery_free hpick)
    | picked now batteryId =>
      simp only [advance, hraises]
      exact .added
    | added now batteryId =>
      simp only [advance, hraises]
      exact .committed
    | ended result => exact .stays
  · cases stage with
    | ended result => exact .stays
    | _ =>
      simp only [advance, hraises]
      exact .refused e

/-! ## The calls side by side -/

/-- The battery is in a live reservation. -/
def Held (b : ℕ) (store : Store) : Prop :=
  ∃ r ∈ store.db.reservations, Live store.clock r ∧ r.batteryId = some b

def HeldOnce (store : Store) : Prop := Apart SharesBattery store.clock store.db.reservations

/-- A call commits, or it writes nothing but expired reservations. -/
theorem advance_store (call : Call) (raises : Stage → Option Exc) (store : Store) (stage : Stage) :
    (∃ now b, stage = .added now b ∧ raises stage = none ∧
      advance call raises store stage = commitReservation call now b store) ∨
    ((∀ now b, stage = .added now b → raises stage ≠ none) ∧
      (advance call raises store stage).1.clock = store.clock ∧
      Lapses store.db (advance call raises store stage).1.db) := by
  have hsteps := advance_steps call raises store stage
  by_cases hcommits : ∃ now b, stage = .added now b ∧ raises stage = none
  · obtain ⟨now, b, rfl, hraises⟩ := hcommits
    refine .inl ⟨now, b, rfl, hraises, ?_⟩
    simp only [advance, hraises]
  · have hnot : ∀ now b, stage = .added now b → raises stage ≠ none :=
      fun now b hstage hraises => hcommits ⟨now, b, hstage, hraises⟩
    refine .inr ⟨hnot, ?_⟩
    rcases hraises : raises stage with _ | e
    · generalize advance call raises store stage = out at hsteps ⊢
      cases hsteps with
      | released h => exact ⟨rfl, h⟩
      | committed => exact absurd hraises (hnot _ _ rfl)
      | _ => exact ⟨rfl, lapses_refl _⟩
    · have hrefused : (advance call raises store stage).1 = store := by
        cases stage with
        | ended result => rfl
        | _ => simp only [advance, hraises, refuse]
      rw [hrefused]
      exact ⟨rfl, lapses_refl _⟩

theorem heldOnce_lapses {store : Store} (hstore : HeldOnce store) {db : Db}
    (h : Lapses store.db db) : HeldOnce ⟨store.clock, db⟩ :=
  h.evolves.apart SharesBattery.of_same hstore

variable {call : Call}

/-- **What a commit does**: it keeps the batteries apart unless it takes one that is held. -/
theorem heldOnce_commit {now b : ℕ} {store : Store} (hstore : HeldOnce store) :
    HeldOnce (commitReservation call now b store).1 ↔
      (store.clock < now + 30 * minute → ¬ Held b store) := by
  have hkey := key_newReservation now call.userId call.stationId b
  constructor
  · rintro hafter hdue ⟨r, hr, hlive, hbattery⟩
    have hnew : Live store.clock
        (newReservation now call.userId call.stationId b store.db.reservations.freshKey) :=
      ⟨.inl rfl, hdue⟩
    obtain rfl := hafter r ((Table.mem_add_mk hkey).mpr (.inl hr)) _
      ((Table.mem_add_mk hkey).mpr (.inr rfl)) hlive hnew ⟨b, hbattery, rfl⟩
    exact lt_irrefl _ (Table.key_lt_freshKey hr)
  · intro hfree
    refine Apart.add SharesBattery.symm hstore hkey fun hnew r hr hlive hshares => ?_
    obtain ⟨b', hb, hb'⟩ := hshares
    cases hb'
    exact hfree hnew.2 ⟨r, hr, hlive, hb⟩

section

variable {ι : Type} [DecidableEq ι]

/-- The turn of a call, or a tick of the clock. -/
def act (calls : ι → Call) (raises : ι → Stage → Option Exc) :
    Option ι → Store → Stage → Store × Stage
  | none, store, stage => (⟨store.clock + 1, store.db⟩, stage)
  | some i, store, stage => advance (calls i) (raises i) store stage

def next (calls : ι → Call) (raises : ι → Stage → Option Exc) :
    World (Option ι) Store Stage → Option ι → World (Option ι) Store Stage :=
  turn (act calls raises)

def worldAfter (calls : ι → Call) (raises : ι → Stage → Option Exc) (store : Store)
    (schedule : List (Option ι)) : World (Option ι) Store Stage :=
  run (next calls raises) (.start store .called) schedule

variable {calls : ι → Call} {raises : ι → Stage → Option Exc} {store : Store}

/-- The next turn is that of call `a`, and it commits a reservation of the battery that is not over
yet. -/
def CommitsAt (b : ℕ) (raises : ι → Stage → Option Exc) (w : World (Option ι) Store Stage) (a : ι) :
    Prop :=
  ∃ now, w.position (some a) = .added now b ∧ raises a (.added now b) = none ∧
    w.store.clock < now + 30 * minute

variable {w : World (Option ι) Store Stage}

theorem heldOnce_next (calls : ι → Call) (raises : ι → Stage → Option Exc)
    (hw : HeldOnce w.store) (x : Option ι) :
    HeldOnce (next calls raises w x).store ↔
      ∀ a b, x = some a → CommitsAt b raises w a → ¬ Held b w.store := by
  cases x with
  | none =>
    refine iff_of_true ?_ fun a b hx => by cases hx
    exact Apart.mono hw (Nat.le_succ _)
  | some i =>
    show HeldOnce (advance (calls i) (raises i) w.store (w.position (some i))).1 ↔ _
    rcases advance_store (calls i) (raises i) w.store (w.position (some i)) with
      ⟨now, b, hstage, hraises, hadvance⟩ | ⟨hnot, hclock, hlapses⟩
    · rw [hadvance, heldOnce_commit hw]
      rw [hstage] at hraises
      constructor
      · rintro hfree a b' ⟨⟩ ⟨now', hstage', -, hdue⟩
        rw [hstage] at hstage'
        cases hstage'
        exact hfree hdue
      · exact fun h hdue => h i b rfl ⟨now, hstage, hraises, hdue⟩
    · refine iff_of_true ?_ ?_
      · unfold HeldOnce
        rw [hclock]
        exact heldOnce_lapses hw hlapses
      · rintro a b ⟨⟩ ⟨now, hstage, hraises, -⟩
        rw [← hstage] at hraises
        exact absurd hraises (hnot now b hstage)

/-! ## Who is overtaken -/

/-- The call takes the battery to be free. -/
def Sees (b : ℕ) : Stage → Prop
  | .read _ reserved => b ∉ reserved
  | .picked _ batteryId => batteryId = b
  | .added _ batteryId => batteryId = b
  | _ => False

variable {b : ℕ} {out : Store × Stage} {stage : Stage}

theorem steps_sees {store : Store}
    (h : Steps call store stage out) (htime : ∀ now, stage = .checked now → now ≤ store.clock)
    (hidle : ¬ Sees b stage) (hsees : Sees b out.2) : ¬ Held b out.1 := by
  cases h with
  | stays => exact absurd hsees hidle
  | refused e => exact absurd hsees id
  | released h => exact absurd hsees id
  | checked => exact absurd hsees id
  | @read now =>
    rintro ⟨r, hr, ⟨hopen, hend⟩, hbattery⟩
    exact not_live_of_free hsees r hr ⟨hopen, (htime now rfl).trans_lt hend⟩ hbattery
  | picked h =>
    obtain rfl := hsees
    exact absurd h hidle
  | added => exact absurd hsees hidle
  | committed => exact absurd hsees id

theorem steps_taken {store : Store}
    (h : Steps call store stage out) (hfree : ¬ Held b store) (htaken : Held b out.1) :
    ¬ Sees b out.2 := by
  cases h with
  | stays => exact absurd htaken hfree
  | refused e => exact id
  | released h => exact id
  | checked => exact id
  | read => exact absurd htaken hfree
  | picked h => exact absurd htaken hfree
  | added => exact absurd htaken hfree
  | committed => exact id

theorem steps_clock {store : Store}
    (h : Steps call store stage out) : out.1.clock = store.clock := by
  cases h <;> rfl

theorem steps_checked {store : Store} {now : ℕ}
    (h : Steps call store stage out) (hout : out.2 = .checked now) : now = store.clock := by
  cases h with
  | checked =>
    cases hout
    rfl
  | _ => cases hout

/-- The time of a check is not after the clock. -/
def Timely (w : World (Option ι) Store Stage) : Prop :=
  ∀ x now, w.position x = .checked now → now ≤ w.store.clock

theorem timely_next (hw : Timely w) (x : Option ι) :
    Timely (next calls raises w x) := by
  intro y now hy
  cases x with
  | none =>
    refine le_trans (hw y now ?_) (Nat.le_succ _)
    by_cases hyx : y = none
    · subst hyx
      rwa [next, turn_position_self] at hy
    · rwa [next, turn_position_ne _ hyx] at hy
  | some i =>
    have hsteps := advance_steps (calls i) (raises i) w.store (w.position (some i))
    show now ≤ (advance (calls i) (raises i) w.store (w.position (some i))).1.clock
    rw [steps_clock hsteps]
    by_cases hyx : y = some i
    · subst hyx
      rw [next, turn_position_self] at hy
      exact (steps_checked hsteps hy).le
    · rw [next, turn_position_ne _ hyx] at hy
      exact hw y now hy

/-- A call commits a battery that is held.  When it read, the battery was free; another call has
taken it since. -/
def Overtaken (calls : ι → Call) (raises : ι → Stage → Option Exc) (store : Store)
    (schedule : List (Option ι)) : Prop :=
  ∃ p x q a r b, schedule = p ++ x :: (q ++ some a :: r) ∧ x ≠ some a ∧
    Sees b ((worldAfter calls raises store p).position (some a)) ∧
    ¬ Held b (worldAfter calls raises store p).store ∧
    Held b (worldAfter calls raises store (p ++ [x])).store ∧
    Held b (worldAfter calls raises store (p ++ x :: q)).store ∧
    CommitsAt b raises (worldAfter calls raises store (p ++ x :: q)) a

/-- A call that takes a held battery to be free has been overtaken. -/
theorem overtaken_of_held {a : ι} (os : List (Option ι))
    (hsees : Sees b ((worldAfter calls raises store os).position (some a)))
    (hheld : Held b (worldAfter calls raises store os).store) :
    ∃ p x q, os = p ++ x :: q ∧ x ≠ some a ∧
      Sees b ((worldAfter calls raises store p).position (some a)) ∧
      ¬ Held b (worldAfter calls raises store p).store ∧
      Held b (worldAfter calls raises store (p ++ [x])).store := by
  refine interference_within (I := Timely) (fun w x hw => timely_next hw x)
    (fun w hw hidle hstarts => ?_) (fun w hw hfree htaken hstill => ?_) id
    (fun x now hx => by cases hx) os hsees hheld
  · exact steps_sees (advance_steps (calls a) (raises a) _ _) (hw (some a)) hidle hstarts
  · exact steps_taken (advance_steps (calls a) (raises a) _ _) hfree htaken hstill

/-- **No battery is in two live reservations** if and only if no call is overtaken. -/
theorem held_once_iff (calls : ι → Call) (raises : ι → Stage → Option Exc) {store : Store}
    (hstart : HeldOnce store) (schedule : List (Option ι)) :
    (∀ p q, schedule = p ++ q → HeldOnce (worldAfter calls raises store p).store) ↔
      ¬ Overtaken calls raises store schedule := by
  have hiff := invariant_iff_along (I := fun w : World (Option ι) Store Stage => HeldOnce w.store)
    (fun w x hw => heldOnce_next calls raises hw x)
    (s := .start store .called) hstart schedule
  refine hiff.trans (along_iff.trans ⟨?_, ?_⟩)
  · rintro hall ⟨p, x, q, a, r, b, hschedule, -, -, -, -, hheld, hcommits⟩
    exact hall (p ++ x :: q) (some a) r (by rw [hschedule]; simp) a b rfl hcommits hheld
  · rintro hnot p _ r hschedule a b rfl hcommits hheld
    obtain ⟨now, hstage, hraises, hdue⟩ := hcommits
    have hsees : Sees b ((worldAfter calls raises store p).position (some a)) := by
      unfold worldAfter
      rw [hstage]
      rfl
    obtain ⟨p', x, q, rfl, hx, hbefore, hfree, htaken⟩ := overtaken_of_held p hsees hheld
    refine hnot ⟨p', x, q, a, r, b, ?_, hx, hbefore, hfree, htaken, hheld, now, hstage,
      hraises, hdue⟩
    rw [hschedule]
    simp

end

/-- Two users at one station with one battery. -/
def both : Bool → Call
  | false => ⟨oneBattery, 1, 1⟩
  | true => ⟨oneBattery, 2, 1⟩

def opening : Store := ⟨0, noReservations⟩

theorem opening_once : HeldOnce opening := fun r hr => absurd hr (Table.not_mem_empty r)

/-- Both read before either commits. -/
def readTogether : List (Option Bool) :=
  List.replicate 4 (some false) ++ List.replicate 4 (some true) ++
    [some false, some true, none, some false, some true]

theorem not_heldOnce_readTogether :
    ¬ HeldOnce (worldAfter both (fun _ _ => none) opening readTogether).store := by
  intro honce
  have htwice :
      ∃ r ∈ (worldAfter both (fun _ _ => none) opening readTogether).store.db.reservations,
      ∃ r' ∈ (worldAfter both (fun _ _ => none) opening readTogether).store.db.reservations,
        Live (worldAfter both (fun _ _ => none) opening readTogether).store.clock r ∧
        Live (worldAfter both (fun _ _ => none) opening readTogether).store.clock r' ∧
        r.batteryId = some 7 ∧ r'.batteryId = some 7 ∧ r ≠ r' := by
    decide +kernel
  obtain ⟨r, hr, r', hr', hl, hl', hb, hb', hne⟩ := htwice
  exact hne (honce r hr r' hr' hl hl' ⟨7, hb, hb'⟩)

theorem held_once_iff_sample : Overtaken both (fun _ _ => none) opening readTogether := by
  by_contra hnot
  have hall := (held_once_iff both (fun _ _ => none) opening_once readTogether).mpr hnot
  exact not_heldOnce_readTogether (hall readTogether [] (List.append_nil _).symm)

theorem held_twice : ¬ ∀ calls : Bool → Call, (calls false).userId ≠ (calls true).userId →
    (calls false).stationId = (calls true).stationId → (calls false).site = (calls true).site →
    ∀ schedule, HeldOnce (worldAfter calls (fun _ _ => none) opening schedule).store := by
  intro hclaim
  exact not_heldOnce_readTogether (hclaim both (by decide) rfl rfl readTogether)

end WezuBackend.Bookings.ConcurrentReservations
