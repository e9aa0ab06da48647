import WezuBackend.Settlements.Months

/-!
# Settlements that are half generated

`generate_monthly_settlement` with the points at which the database may fail: its queries, and its
two commits.

The first commit stores the settlement, the second one the links of its commissions and chargebacks.
What fails in between leaves a settlement that nothing is linked to, and the next call returns it as
it is.  `all_or_nothing_iff` says at which points a failure does no harm.
-/

namespace WezuBackend.Settlements.Generation

open Lib.Tables Lib.Atomicity Lib.Atomicity.Tx Core.Base Settlements.Model Settlements.Months

/-! ## The points of a call -/

/-- The queries and the commits of a call, in their order. -/
inductive Point where
  | existing
  | commissions
  | dealerProfile
  | stations
  | swaps
  | chargebacks
  | create
  | refresh
  | link
  deriving DecidableEq, Repr

inductive GenerationError where
  | refused (e : Exc)
  /-- the database fails -/
  | operationalError
  deriving DecidableEq, Repr

abbrev GenerationTx (α : Type) : Type := Tx GenerationError Db α

def reach (fails : Point → Bool) (point : Point) : GenerationTx Unit :=
  if fails point then raise .operationalError else pure ()

def safeCommit (fails : Point → Bool) (point : Point) : GenerationTx Unit :=
  if fails point then rollback >>= fun _ => raise .operationalError else commit

def settlementOf (dealerId : ℕ) (month : String) (db : Db) : Option Settlement :=
  db.settlements.find? fun s => s.dealerId = some dealerId ∧ s.settlementMonth = month

def profileOf (dealerId : ℕ) (db : Db) : Option DealerProfile :=
  db.dealerProfiles.find? fun d => d.userId = dealerId

def stationIdsOf (profile : DealerProfile) (db : Db) : List ℕ :=
  (db.stations.filter fun s => s.dealerId = some profile.id).map Station.id

def readRevenue (fails : Point → Bool) (dealerId : ℕ) : GenerationTx Unit := do
  reach fails .dealerProfile
  let db ← look
  match profileOf dealerId db with
  | none => pure ()
  | some profile => do
    reach fails .stations
    if stationIdsOf profile db ≠ [] then reach fails .swaps

/-- The settlement is added. -/
def created (dealerId : ℕ) (month : String) (m : Month) (db : Db) : Db :=
  { db with settlements := db.settlements.add (newSettlement dealerId month m db) }

/-- `generate_monthly_settlement`. -/
def generate (fails : Point → Bool) (dealerId : ℕ) (month : String) :
    GenerationTx Settlement := do
  let m ← lift ((parseMonth month).mapError .refused)
  reach fails .existing
  let db ← look
  match settlementOf dealerId month db with
  | some existing => return existing
  | none => do
    reach fails .commissions
    readRevenue fails dealerId
    reach fails .chargebacks
    let settlement := newSettlement dealerId month m db db.settlements.freshKey
    update (created dealerId month m)
    safeCommit fails .create
    reach fails .refresh
    update (linkRows dealerId m settlement.id)
    safeCommit fails .link
    return settlement

/-- The database does not fail. -/
def clean : Point → Bool := fun _ => false

/-! ## How a call ends -/

variable {point : Point}

theorem reach_bind {α : Type} {fails : Point → Bool} (h : fails point = false)
    (f : Unit → GenerationTx α) (s : Session Db) : (reach fails point >>= f) s = f () s := by
  unfold reach
  rw [h]
  rfl

theorem reach_bind_fails {α : Type} {fails : Point → Bool}
    (h : fails point = true) (f : Unit → GenerationTx α) (s : Session Db) :
    (reach fails point >>= f) s = (.error .operationalError, s) := by
  unfold reach
  rw [h]
  rfl

theorem safeCommit_bind {α : Type} {fails : Point → Bool}
    (h : fails point = false) (f : Unit → GenerationTx α) (s : Session Db) :
    (safeCommit fails point >>= f) s = f () ⟨s.working, s.working⟩ := by
  unfold safeCommit
  rw [h]
  rfl

theorem safeCommit_bind_fails {α : Type} {fails : Point → Bool}
    (h : fails point = true) (f : Unit → GenerationTx α) (s : Session Db) :
    (safeCommit fails point >>= f) s =
      (.error .operationalError, ⟨s.committed, s.committed⟩) := by
  unfold safeCommit
  rw [h]
  rfl

def RevenueFails (fails : Point → Bool) (dealerId : ℕ) (db : Db) : Prop :=
  fails .dealerProfile = true ∨ ∃ profile ∈ profileOf dealerId db,
    fails .stations = true ∨ (stationIdsOf profile db ≠ [] ∧ fails .swaps = true)

/-- The call fails before the settlement is stored. -/
def FailsBefore (fails : Point → Bool) (dealerId : ℕ) (db : Db) : Prop :=
  fails .existing = true ∨ fails .commissions = true ∨ RevenueFails fails dealerId db ∨
    fails .chargebacks = true ∨ fails .create = true

section

variable {fails : Point → Bool} {dealerId : ℕ} {month : String} {m : Month} {db : Db}

theorem month_read (hmonth : parseMonth month = .ok m) :
    (parseMonth month).mapError GenerationError.refused = .ok m := by
  rw [hmonth]
  rfl

theorem readRevenue_fails (h : RevenueFails fails dealerId db) :
    readRevenue fails dealerId (.fresh db) = (.error .operationalError, .fresh db) := by
  unfold readRevenue
  by_cases hprofile : fails .dealerProfile = true
  · rw [reach_bind_fails hprofile]
  · obtain ⟨profile, hfound, hrest⟩ := h.resolve_left hprofile
    rw [reach_bind (by simpa using hprofile), look_bind, Session.working_fresh,
      Option.mem_def.mp hfound]
    dsimp only
    by_cases hstations : fails .stations = true
    · rw [reach_bind_fails hstations]
    · obtain ⟨hany, hswaps⟩ := hrest.resolve_left hstations
      rw [reach_bind (by simpa using hstations), if_pos hany]
      unfold reach
      rw [hswaps]
      rfl

theorem readRevenue_ok (h : ¬ RevenueFails fails dealerId db) :
    readRevenue fails dealerId (.fresh db) = (.ok (), .fresh db) := by
  obtain ⟨hprofile, hrest⟩ := not_or.mp h
  unfold readRevenue
  rw [reach_bind (by simpa using hprofile), look_bind, Session.working_fresh]
  rcases hfound : profileOf dealerId db with _ | profile
  · rfl
  · have hstations : fails .stations = false := by
      simpa using fun hfails => hrest ⟨profile, hfound, .inl hfails⟩
    dsimp only
    rw [reach_bind hstations]
    by_cases hany : stationIdsOf profile db ≠ []
    · have hreached : fails .swaps = false := by
        simpa using fun hfails => hrest ⟨profile, hfound, .inr ⟨hany, hfails⟩⟩
      rw [if_pos hany]
      unfold reach
      rw [hreached]
      rfl
    · rw [if_neg hany]
      rfl

theorem generate_existing (hmonth : parseMonth month = .ok m) (hpoint : fails .existing = false)
    {existing : Settlement} (h : settlementOf dealerId month db = some existing) :
    (generate fails dealerId month).call db = (.ok existing, db) := by
  have hrun : (generate fails dealerId month) (.fresh db) = (.ok existing, .fresh db) := by
    unfold generate
    rw [lift_bind (month_read hmonth), reach_bind hpoint, look_bind, Session.working_fresh, h]
    rfl
  rw [call_eq hrun]
  rfl

theorem generate_before (hmonth : parseMonth month = .ok m)
    (hnew : settlementOf dealerId month db = none) (h : FailsBefore fails dealerId db) :
    (generate fails dealerId month).call db = (.error .operationalError, db) := by
  have hrun : ∃ t, (generate fails dealerId month) (.fresh db) = (.error .operationalError, t) ∧
      t.committed = db := by
    unfold generate
    rw [lift_bind (month_read hmonth)]
    by_cases hexisting : fails .existing = true
    · exact ⟨_, reach_bind_fails hexisting _ _, rfl⟩
    rw [reach_bind (by simpa using hexisting), look_bind, Session.working_fresh, hnew]
    dsimp only
    by_cases hcommissions : fails .commissions = true
    · exact ⟨_, reach_bind_fails hcommissions _ _, rfl⟩
    rw [reach_bind (by simpa using hcommissions)]
    by_cases hrevenue : RevenueFails fails dealerId db
    · exact ⟨_, bind_of_error (readRevenue_fails hrevenue), rfl⟩
    rw [bind_of_ok (readRevenue_ok hrevenue)]
    by_cases hchargebacks : fails .chargebacks = true
    · exact ⟨_, reach_bind_fails hchargebacks _ _, rfl⟩
    have hcreate : fails .create = true :=
      (((h.resolve_left hexisting).resolve_left hcommissions).resolve_left hrevenue).resolve_left
        hchargebacks
    rw [reach_bind (by simpa using hchargebacks), update_bind]
    exact ⟨_, safeCommit_bind_fails hcreate _ _, rfl⟩
  obtain ⟨t, hraises, hcommitted⟩ := hrun
  rw [call_eq hraises, hcommitted]

theorem generate_created (hmonth : parseMonth month = .ok m)
    (hnew : settlementOf dealerId month db = none) (h : ¬ FailsBefore fails dealerId db) :
    (generate fails dealerId month) (.fresh db) =
      (reach fails .refresh >>= fun _ =>
        update (linkRows dealerId m db.settlements.freshKey) >>= fun _ =>
          safeCommit fails .link >>= fun _ =>
            pure (newSettlement dealerId month m db db.settlements.freshKey))
        (.fresh (created dealerId month m db)) := by
  obtain ⟨hexisting, h⟩ := not_or.mp h
  obtain ⟨hcommissions, h⟩ := not_or.mp h
  obtain ⟨hrevenue, h⟩ := not_or.mp h
  obtain ⟨hchargebacks, hcreate⟩ := not_or.mp h
  unfold generate
  rw [lift_bind (month_read hmonth), reach_bind (by simpa using hexisting), look_bind,
    Session.working_fresh, hnew]
  dsimp only
  rw [reach_bind (by simpa using hcommissions), bind_of_ok (readRevenue_ok hrevenue),
    reach_bind (by simpa using hchargebacks), update_bind,
    safeCommit_bind (by simpa using hcreate)]
  rfl

theorem generate_half (hmonth : parseMonth month = .ok m)
    (hnew : settlementOf dealerId month db = none) (h : ¬ FailsBefore fails dealerId db)
    (hfails : fails .refresh = true ∨ fails .link = true) :
    (generate fails dealerId month).call db =
      (.error .operationalError, created dealerId month m db) := by
  have hstart := generate_created hmonth hnew h
  by_cases hrefresh : fails .refresh = true
  · rw [reach_bind_fails hrefresh] at hstart
    rw [call_eq hstart]
    rfl
  · rw [reach_bind (by simpa using hrefresh), update_bind,
      safeCommit_bind_fails (hfails.resolve_left hrefresh)] at hstart
    rw [call_eq hstart]
    rfl

theorem generate_done (hmonth : parseMonth month = .ok m)
    (hnew : settlementOf dealerId month db = none) (h : ¬ FailsBefore fails dealerId db)
    (hrefresh : fails .refresh = false) (hlink : fails .link = false) :
    (generate fails dealerId month).call db =
      (.ok (newSettlement dealerId month m db db.settlements.freshKey),
        linkRows dealerId m db.settlements.freshKey (created dealerId month m db)) := by
  have hstart := generate_created hmonth hnew h
  rw [reach_bind hrefresh, update_bind, safeCommit_bind hlink] at hstart
  rw [call_eq hstart]
  rfl

end

theorem not_failsBefore_clean (dealerId : ℕ) (db : Db) : ¬ FailsBefore clean dealerId db := by
  rintro (h | h | (h | ⟨-, -, h | ⟨-, h⟩⟩) | h | h) <;> cases h

/-! ## All or nothing -/

def deductIn (settlementId : ℕ) (cb : Chargeback) : Chargeback :=
  { cb with settlementId := some settlementId, status := .deducted }

/-- The commissions and the chargebacks that are due in `db` are linked to the settlement. -/
structure Linked (dealerId : ℕ) (m : Month) (settlementId : ℕ) (db db' : Db) : Prop where
  commissions : ∀ c ∈ db.commissionLogs, Due dealerId m c →
    linkTo settlementId c ∈ db'.commissionLogs
  chargebacks : ∀ cb ∈ db.chargebacks, Charged dealerId m cb →
    deductIn settlementId cb ∈ db'.chargebacks

/-- The settlement of the month is there, with all that is due in `db`. -/
def Complete (dealerId : ℕ) (month : String) (m : Month) (db db' : Db) : Prop :=
  ∃ s ∈ db'.settlements, s.dealerId = some dealerId ∧ s.settlementMonth = month ∧
    Linked dealerId m s.id db db'

/-- A call leaves no settlement or a complete one, and after a failure another call completes it. -/
structure AllOrNothing (fails : Point → Bool) (dealerId : ℕ) (month : String) (m : Month)
    (db : Db) : Prop where
  whole : settlementOf dealerId month ((generate fails dealerId month).call db).2 = none ∨
    Complete dealerId month m db ((generate fails dealerId month).call db).2
  retried : ∀ e, ((generate fails dealerId month).call db).1 = .error e →
    ∃ s, ((generate clean dealerId month).call ((generate fails dealerId month).call db).2).1 =
      .ok s ∧ Complete dealerId month m db
        ((generate clean dealerId month).call ((generate fails dealerId month).call db).2).2

def NothingDue (dealerId : ℕ) (m : Month) (db : Db) : Prop :=
  (∀ c ∈ db.commissionLogs, ¬ Due dealerId m c) ∧ ∀ cb ∈ db.chargebacks, ¬ Charged dealerId m cb

/-- The call fails before the settlement is stored, or not after that, or nothing is due. -/
def Harmless (fails : Point → Bool) (dealerId : ℕ) (m : Month) (db : Db) : Prop :=
  FailsBefore fails dealerId db ∨ (fails .refresh = false ∧ fails .link = false) ∨
    NothingDue dealerId m db

section

variable {fails : Point → Bool} {dealerId : ℕ} {month : String} {m : Month} {db : Db}

theorem settlementOf_created (hnew : settlementOf dealerId month db = none) :
    settlementOf dealerId month (created dealerId month m db) =
      some (newSettlement dealerId month m db db.settlements.freshKey) := by
  have hfind : settlementOf dealerId month (created dealerId month m db) = _ :=
    Table.find?_add_mk (fun _ => rfl) _
  rw [hfind]
  unfold settlementOf at hnew
  rw [hnew]
  exact if_pos (decide_eq_true ⟨rfl, rfl⟩)

theorem linked_linkRows (k : ℕ) :
    Linked dealerId m k db (linkRows dealerId m k (created dealerId month m db)) := by
  refine ⟨fun c hc hdue => mem_linkRows.mpr ⟨c, hc, if_pos hdue⟩, fun cb hcb hcharged => ?_⟩
  exact List.mem_map.mpr ⟨cb, hcb, if_pos (decide_eq_true hcharged)⟩

theorem complete_done : Complete dealerId month m db
    (linkRows dealerId m db.settlements.freshKey (created dealerId month m db)) :=
  ⟨_, mem_settlements.mpr (.inr rfl), rfl, rfl, linked_linkRows _⟩

theorem clean_call_complete (hmonth : parseMonth month = .ok m)
    (hnew : settlementOf dealerId month db = none) :
    ∃ s, ((generate clean dealerId month).call db).1 = .ok s ∧
      Complete dealerId month m db ((generate clean dealerId month).call db).2 := by
  rw [generate_done hmonth hnew (not_failsBefore_clean dealerId db) rfl rfl]
  exact ⟨_, rfl, complete_done⟩

theorem complete_created_iff (hnew : settlementOf dealerId month db = none) :
    Complete dealerId month m db (created dealerId month m db) ↔ NothingDue dealerId m db := by
  constructor
  · rintro ⟨s, -, -, -, hlinked⟩
    refine ⟨fun c hc hdue => ?_, fun cb hcb hcharged => ?_⟩
    · have hsame : linkTo s.id c = c :=
        Table.eq_of_key (hlinked.commissions c hc hdue) hc rfl
      have hpending := hdue.2.1
      rw [← hsame] at hpending
      cases hpending
    · have hsame : deductIn s.id cb = cb :=
        Table.eq_of_key (hlinked.chargebacks cb hcb hcharged) hcb rfl
      have hpending := hcharged.2.1
      rw [← hsame] at hpending
      cases hpending
  · rintro ⟨hcommissions, hchargebacks⟩
    exact ⟨_, Table.find?_mem (settlementOf_created hnew), rfl, rfl,
      fun c hc hdue => absurd hdue (hcommissions c hc),
      fun cb hcb hcharged => absurd hcharged (hchargebacks cb hcb)⟩

/-- **A call is all or nothing**, and can be retried, if and only if it fails before the settlement
is stored, or not after that, or nothing is due. -/
theorem all_or_nothing_iff (hmonth : parseMonth month = .ok m)
    (hnew : settlementOf dealerId month db = none) :
    AllOrNothing fails dealerId month m db ↔ Harmless fails dealerId m db := by
  by_cases hbefore : FailsBefore fails dealerId db
  · have hcall := generate_before hmonth hnew hbefore
    refine iff_of_true ⟨?_, fun e herror => ?_⟩ (.inl hbefore)
    · rw [hcall]
      exact .inl hnew
    · rw [hcall]
      exact clean_call_complete hmonth hnew
  by_cases hafter : fails .refresh = true ∨ fails .link = true
  · have hcall := generate_half hmonth hnew hbefore hafter
    have hfound : settlementOf dealerId month (created dealerId month m db) = some _ :=
      settlementOf_created hnew
    constructor
    · intro h
      have hwhole := h.whole
      rw [hcall] at hwhole
      refine .inr (.inr ((complete_created_iff hnew).mp (hwhole.resolve_left ?_)))
      dsimp only
      rw [hfound]
      exact Option.some_ne_none _
    · intro h
      have hnothing : NothingDue dealerId m db := by
        rcases h with h | ⟨hrefresh, hlink⟩ | h
        · exact absurd h hbefore
        · rw [hrefresh, hlink] at hafter
          simp at hafter
        · exact h
      have hcomplete : Complete dealerId month m db (created dealerId month m db) :=
        (complete_created_iff hnew).mpr hnothing
      refine ⟨?_, fun e herror => ?_⟩
      · rw [hcall]
        exact .inr hcomplete
      · rw [hcall, generate_existing hmonth rfl hfound]
        exact ⟨_, rfl, hcomplete⟩
  · obtain ⟨hrefresh, hlink⟩ := not_or.mp hafter
    have hcall := generate_done hmonth hnew hbefore (by simpa using hrefresh) (by simpa using hlink)
    refine iff_of_true ⟨?_, fun e herror => ?_⟩
      (.inr (.inl ⟨by simpa using hrefresh, by simpa using hlink⟩))
    · rw [hcall]
      exact .inr complete_done
    · rw [hcall] at herror
      cases herror

end

/-! ## An example -/

def january : Month := ⟨2025, 1, Nat.le_of_ble_eq_true rfl, le_rfl, Nat.le_of_ble_eq_true rfl⟩

theorem january_read : parseMonth "2025-01" = .ok january := by decide

/-- Dealer 80 has a pending commission of 85.00. -/
def commissioned : Db where
  commissionLogs := ⟨[{ id := 80, dealerId := some 80, amount := 8500
                        createdAt := january.start + day }], List.nodup_singleton _⟩

theorem commissioned_new : settlementOf 80 "2025-01" commissioned = none := rfl

/-- The second commit fails. -/
def linkFails : Point → Bool := fun point => point = .link

/-- Nothing fails, or the first statement does. -/
theorem all_or_nothing_iff_sample :
    AllOrNothing clean 80 "2025-01" january commissioned ∧
      AllOrNothing (fun _ => true) 80 "2025-01" january commissioned :=
  ⟨(all_or_nothing_iff january_read commissioned_new).mpr (.inr (.inl ⟨rfl, rfl⟩)),
    (all_or_nothing_iff january_read commissioned_new).mpr (.inl (.inl rfl))⟩

/-- The settlement of January is worth 85.00, and its commission is not linked to it. -/
theorem settlement_half_generated : ¬ ∀ (fails : Point → Bool) (dealerId : ℕ) (month : String)
    (m : Month) (db : Db), parseMonth month = .ok m → settlementOf dealerId month db = none →
      AllOrNothing fails dealerId month m db := by
  intro hclaim
  have hwhole := (hclaim linkFails 80 "2025-01" january commissioned january_read
    commissioned_new).whole
  have hbefore : ¬ FailsBefore linkFails 80 commissioned := by
    rintro (h | h | (h | ⟨-, -, h | ⟨-, h⟩⟩) | h | h) <;> cases h
  have hfound := settlementOf_created (m := january) commissioned_new
  rw [generate_half january_read commissioned_new hbefore (.inr rfl)] at hwhole
  dsimp only at hwhole
  rw [hfound] at hwhole
  have hcomplete := hwhole.resolve_left (Option.some_ne_none _)
  obtain ⟨hnone, -⟩ := (complete_created_iff commissioned_new).mp hcomplete
  exact hnone _ List.mem_cons_self ⟨rfl, rfl, by decide⟩

end WezuBackend.Settlements.Generation
