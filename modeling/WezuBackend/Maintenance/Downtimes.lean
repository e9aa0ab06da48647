import WezuBackend.Core.Calendar
import WezuBackend.Dealers.Ledger
import WezuBackend.Lib.Runs
import WezuBackend.Lib.Windows

/-!
# Maintenance windows of a station

`schedule_maintenance` looks for a downtime of the station that the new window would overlap.  The
query misses a downtime without an end when the new window has one, since a NULL is after nothing,
and it takes every downtime for a conflict when the new window has no end.  So a request is decided
by what it overlaps exactly if the query sees it right (`schedule_iff`, `maintenance_windows_iff`).
-/

namespace WezuBackend.Maintenance.Downtimes

open Lib.Tables Lib.Runs Lib.Windows Core.Base
open Core.Calendar (datetimeMax)
open Dealers.Ledger (Station)

/-! ## The program -/

structure StationDowntime where
  id : ℕ
  stationId : ℕ
  startTime : ℤ
  endTime : Option ℤ := none
  reason : String
  deriving DecidableEq, Repr

instance : Row StationDowntime ℕ := ⟨StationDowntime.id⟩

structure Db where
  stations : Table Station := .empty
  downtimes : Table StationDowntime := .empty

/-- A call of `schedule_maintenance`. -/
structure Call where
  stationId : ℕ
  dealerId : ℕ
  startTime : ℤ
  endTime : Option ℤ := none
  reason : String

def getDealerStation (stationId dealerId : ℕ) (db : Db) : Except Exc Station :=
  (db.stations.find? fun st => st.id = stationId ∧ st.dealerId = some dealerId).elim
    (.error (.http 404 "Station not found")) .ok

def overlapQuery (call : Call) (d : StationDowntime) : Bool :=
  d.stationId = call.stationId ∧ d.startTime < call.endTime.getD datetimeMax ∧
    -- a NULL is after nothing
    (call.endTime ≠ none → ∃ endTime ∈ d.endTime, call.startTime < endTime)

def newDowntime (call : Call) (id : ℕ) : StationDowntime where
  id := id
  stationId := call.stationId
  startTime := call.startTime
  endTime := call.endTime
  reason := call.reason

theorem key_newDowntime (call : Call) (id : ℕ) : Row.key (newDowntime call id) = id := rfl

def scheduleMaintenance (call : Call) (db : Db) : Except Exc StationDowntime × Db :=
  match getDealerStation call.stationId call.dealerId db with
  | .error e => (.error e, db)
  | .ok _ =>
    match db.downtimes.find? (overlapQuery call) with
    | some _ => (.error (.http 400 "Maintenance schedule overlaps with existing downtime"), db)
    | none => (.ok (newDowntime call db.downtimes.freshKey),
        { db with downtimes := db.downtimes.add (newDowntime call) (key_newDowntime call) })

def step (db : Db) (call : Call) : Db := (scheduleMaintenance call db).2

/-! ## What it is for -/

def Call.window (call : Call) : Window ℤ := ⟨call.startTime, call.endTime⟩

def StationDowntime.window (d : StationDowntime) : Window ℤ := ⟨d.startTime, d.endTime⟩

/-- The station is the dealer's. -/
def Owned (db : Db) (call : Call) : Prop :=
  ∃ st, getDealerStation call.stationId call.dealerId db = .ok st

def Accepted (db : Db) (call : Call) : Prop := ∃ d, (scheduleMaintenance call db).1 = .ok d

/-- The call is accepted exactly if its window overlaps no downtime of the station. -/
def Decided (db : Db) (call : Call) : Prop :=
  Owned db call → (Accepted db call ↔
    ∀ d ∈ db.downtimes, d.stationId = call.stationId → ¬ d.window.Overlaps call.window)

/-- The downtimes of each station are pairwise disjoint. -/
def Disjointed (db : Db) : Prop :=
  ∀ x ∈ db.downtimes, ∀ y ∈ db.downtimes, x ≠ y → x.stationId = y.stationId →
    ¬ x.window.Overlaps y.window

/-- What the query can see: for a window with an end, one with an end overlaps it, or none without
an end begins before its end; for a window without an end, one that has begun before the last moment
of the calendar if and only if one is still open when it begins. -/
def Seen (db : Db) (call : Call) : Prop :=
  match call.endTime with
  | some endTime =>
    (∃ d ∈ db.downtimes, d.stationId = call.stationId ∧ d.endTime ≠ none ∧
      d.window.Overlaps call.window) ∨
    ∀ d ∈ db.downtimes, d.stationId = call.stationId → d.endTime = none → endTime ≤ d.startTime
  | none =>
    (∃ d ∈ db.downtimes, d.stationId = call.stationId ∧ d.startTime < datetimeMax) ↔
      ∃ d ∈ db.downtimes, d.stationId = call.stationId ∧ d.window.OpenAt call.startTime

instance (db : Db) (call : Call) : Decidable (Owned db call) :=
  match h : getDealerStation call.stationId call.dealerId db with
  | .ok st => isTrue ⟨st, h⟩
  | .error _ => isFalse fun ⟨_, hst⟩ => by
    rw [h] at hst
    cases hst

instance (db : Db) (call : Call) : Decidable (Seen db call) := by
  unfold Seen
  split <;> infer_instance

section

variable {db : Db} {call : Call}

theorem schedule_cases (call : Call) (db : Db) :
    step db call = db ∧ ¬ Accepted db call ∨
      Accepted db call ∧ Owned db call ∧ (∀ d ∈ db.downtimes, overlapQuery call d = false) ∧
        step db call = { db with
          downtimes := db.downtimes.add (newDowntime call) (key_newDowntime call) } := by
  unfold step Accepted Owned scheduleMaintenance
  rcases getDealerStation call.stationId call.dealerId db with e | st
  · exact .inl ⟨rfl, nofun⟩
  · dsimp only
    rcases hfound : db.downtimes.find? (overlapQuery call) with _ | d
    · exact .inr ⟨⟨_, rfl⟩, ⟨st, rfl⟩, Table.find?_eq_none.mp hfound, rfl⟩
    · exact .inl ⟨rfl, nofun⟩

theorem accepted_iff (howned : Owned db call) :
    Accepted db call ↔ ∀ d ∈ db.downtimes, overlapQuery call d = false := by
  obtain ⟨st, hst⟩ := howned
  unfold Accepted scheduleMaintenance
  rw [hst, ← Table.find?_eq_none]
  dsimp only
  rcases hfound : db.downtimes.find? (overlapQuery call) with _ | d
  · exact iff_of_true ⟨_, rfl⟩ rfl
  · exact iff_of_false nofun nofun

/-! ## What the query sees -/

theorem overlapQuery_of_some {endTime : ℤ} (h : call.endTime = some endTime)
    (d : StationDowntime) : overlapQuery call d = true ↔
      d.stationId = call.stationId ∧ d.endTime ≠ none ∧ d.window.Overlaps call.window := by
  unfold overlapQuery Window.Overlaps StationDowntime.window Call.window
  rcases d with ⟨id, stationId, startTime, _ | stop, reason⟩
  · simp [h]
  · simp [h, and_comm]

theorem overlapQuery_of_none (h : call.endTime = none) (d : StationDowntime) :
    overlapQuery call d = true ↔ d.stationId = call.stationId ∧ d.startTime < datetimeMax := by
  unfold overlapQuery
  simp [h]

theorem overlaps_of_none (h : call.endTime = none) (d : StationDowntime) :
    d.window.Overlaps call.window ↔ d.window.OpenAt call.startTime := by
  unfold Window.Overlaps Call.window
  rw [h]
  exact and_iff_left (Window.openAt_none _ _)

theorem decided_iff (howned : Owned db call) : Decided db call ↔
    ((∃ d ∈ db.downtimes, overlapQuery call d = true) ↔
      ∃ d ∈ db.downtimes, d.stationId = call.stationId ∧ d.window.Overlaps call.window) := by
  have hnone : (∀ d ∈ db.downtimes, overlapQuery call d = false) ↔
      ¬ ∃ d ∈ db.downtimes, overlapQuery call d = true := by simp
  have hfree : (∀ d ∈ db.downtimes, d.stationId = call.stationId →
      ¬ d.window.Overlaps call.window) ↔ ¬ ∃ d ∈ db.downtimes, d.stationId = call.stationId ∧
        d.window.Overlaps call.window := by simp
  unfold Decided
  rw [accepted_iff howned, hnone, hfree, not_iff_not]
  exact ⟨fun h => h howned, fun h _ => h⟩

theorem schedule_iff (db : Db) (call : Call) :
    Decided db call ↔ (Owned db call → Seen db call) := by
  by_cases howned : Owned db call
  swap
  · exact iff_of_true (fun h => absurd h howned) fun h => absurd h howned
  rw [decided_iff howned, forall_prop_of_true howned]
  unfold Seen
  rcases hend : call.endTime with _ | endTime
  · simp only [overlapQuery_of_none hend, overlaps_of_none hend]
  · simp only [overlapQuery_of_some hend]
    -- a downtime without an end is still open whenever the new window begins
    have hopen : ∀ d : StationDowntime, d.endTime = none →
        (d.window.Overlaps call.window ↔ d.startTime < endTime) := by
      intro d hd
      unfold Window.Overlaps StationDowntime.window Call.window
      rw [hd, hend, Window.openAt_some]
      exact and_iff_right (Window.openAt_none _ _)
    constructor
    · intro h
      by_cases hclosed : ∃ d ∈ db.downtimes, d.stationId = call.stationId ∧ d.endTime ≠ none ∧
          d.window.Overlaps call.window
      · exact .inl hclosed
      · refine .inr fun d hd hstation hnone => not_lt.mp fun hlt => hclosed ?_
        exact h.mpr ⟨d, hd, hstation, (hopen d hnone).mpr hlt⟩
    · intro h
      constructor
      · rintro ⟨d, hd, hstation, -, hoverlaps⟩
        exact ⟨d, hd, hstation, hoverlaps⟩
      · rintro ⟨d, hd, hstation, hoverlaps⟩
        rcases h with hclosed | hlater
        · exact hclosed
        · refine ⟨d, hd, hstation, fun hnone => ?_, hoverlaps⟩
          exact absurd ((hopen d hnone).mp hoverlaps) (not_lt.mpr (hlater d hd hstation hnone))

theorem disjointed_step (h : Disjointed db) (hdecided : Decided db call) :
    Disjointed (step db call) := by
  rcases schedule_cases call db with ⟨hsame, -⟩ | ⟨haccepted, howned, -, hstep⟩
  · rw [hsame]
    exact h
  · have hfree := (hdecided howned).mp haccepted
    have hmem : ∀ z, z ∈ (step db call).downtimes ↔
        z ∈ db.downtimes ∨ z = newDowntime call db.downtimes.freshKey := by
      intro z
      rw [hstep]
      exact Table.mem_add_mk (key_newDowntime call)
    intro x hx y hy hne hstation
    rcases (hmem x).mp hx with hx | rfl
    · rcases (hmem y).mp hy with hy | rfl
      · exact h x hx y hy hne hstation
      · exact hfree x hx hstation
    · rcases (hmem y).mp hy with hy | rfl
      · exact fun hoverlaps => hfree y hy hstation.symm (Window.overlaps_comm.mp hoverlaps)
      · exact absurd rfl hne

end

/-- **Maintenance windows**: from disjoint downtimes, all calls of a run are decided by what they
overlap, and the downtimes stay disjoint, exactly if the query sees each of them. -/
theorem maintenance_windows_iff {db : Db} (h : Disjointed db) (calls : List Call) :
    (Along step Decided db calls ∧ ∀ p q, calls = p ++ q → Disjointed (run step db p)) ↔
      Along step (fun db call => Owned db call → Seen db call) db calls := by
  have hiff : Along step Decided db calls ↔ _ :=
    along_congr (I := fun _ => True) (fun _ _ _ => trivial) (fun s c _ => schedule_iff s c)
      trivial calls
  rw [← hiff]
  refine ⟨fun h => h.1, fun hdecided => ⟨hdecided, ?_⟩⟩
  rintro p q rfl
  exact run_invariant_of_along (fun s c hs hc => disjointed_step hs hc) h
    (along_append.mp hdecided).1

/-! ## A window behind one without an end -/

/-- One station, and nothing scheduled. -/
def opened : Db where
  stations := ⟨[⟨1, "West", some 4⟩], by decide⟩

theorem disjointed_opened : Disjointed opened := fun x hx => absurd hx (Table.not_mem_empty x)

/-- Of four requests the second overlaps the first, and the last overlaps the third. -/
theorem maintenance_windows_sample :
    Along step Decided opened [⟨1, 4, 10, some 20, "inverter"⟩, ⟨1, 4, 15, some 25, "paint"⟩,
      ⟨1, 4, 20, some 30, "meter"⟩, ⟨1, 4, 25, none, "rebuild"⟩] :=
  ((maintenance_windows_iff disjointed_opened _).mpr (by decide +kernel)).1

/-- The station is closed from 10 on, and a window from 20 to 30 is accepted. -/
theorem open_window_missed : ¬ Along step Decided opened
    [⟨1, 4, 10, none, "rebuild"⟩, ⟨1, 4, 20, some 30, "meter"⟩] := by
  rintro ⟨-, hdecided, -⟩
  exact absurd ((schedule_iff _ _).mp hdecided) (by decide +kernel)

end WezuBackend.Maintenance.Downtimes
