import WezuBackend.Core.Amounts
import WezuBackend.Lib.Runs
import WezuBackend.Settlements.Model

/-!
# Monthly settlements

`generate_monthly_settlement` of `SettlementService`.  It collects the pending commissions from the
start of the month to one second before its end, unless there is a settlement for the month already.

A commission of the last second of a month is in no window, and one that is logged after the
settlement of its month is picked up by no later call (`commission_left_over`).  In a run without
these, every commission of a month that has been settled is linked to the settlement of that month,
and a settlement is worth its commissions (`settlements_partition`).
-/

namespace WezuBackend.Settlements.Months

open Lib.Tables Lib.Runs Core.Base Core.Amounts Core.Text Settlements.Model

/-! ## The month of a call -/

/-- `year, mon = map(int, month.split("-"))`. -/
def splitMonth (month : String) : Except Exc (ℤ × ℤ) :=
  match (month.toList.splitOn '-').map String.ofList with
  | [year, mon] => do
    let year ← intOfText year
    let mon ← intOfText mon
    return (year, mon)
  | year :: mon :: rest :: _ => do
    let _ ← intOfText year
    let _ ← intOfText mon
    let _ ← intOfText rest
    throw (.valueError "too many values to unpack (expected 2)")
  | parts => do
    let _ ← parts.mapM intOfText
    throw (.valueError "not enough values to unpack (expected 2, got 1)")

/-- The greatest C int. -/
def intMax : ℤ := 2147483647

/-- The arguments of `datetime` are in range; so is the end of the month. -/
def monthOf (year mon : ℤ) : Except Exc Month :=
  if year < -intMax - 1 ∨ intMax < year ∨ mon < -intMax - 1 ∨ intMax < mon then
    .error .overflowError
  else if h : 1 ≤ year ∧ year ≤ 9999 then
    if h' : 1 ≤ mon ∧ mon ≤ 12 then
      if year = 9999 ∧ mon = 12 then .error (.valueError "year 10000 is out of range")
      else .ok ⟨year.toNat, mon.toNat, by omega, by omega⟩
    else .error (.valueError "month must be in 1..12")
  else .error (.valueError s!"year {year} is out of range")

def parseMonth (month : String) : Except Exc Month := do
  let (year, mon) ← splitMonth month
  monthOf year mon

example : parseMonth "2025-02" = .ok ⟨2025, 2, by decide, by decide⟩ := by decide

example : parseMonth "2025-13" = .error (.valueError "month must be in 1..12") := by decide

/-- `end_date`: one second before the next month. -/
def endDate (m : Month) : ℕ := m.next.start - second

def InWindow (m : Month) (time : ℕ) : Prop := m.start ≤ time ∧ time ≤ endDate m

instance (m : Month) (time : ℕ) : Decidable (InWindow m time) := by unfold InWindow; infer_instance

/-! ## The settlement of a month -/

def Due (dealerId : ℕ) (m : Month) (c : CommissionLog) : Prop :=
  c.dealerId = some dealerId ∧ c.status = .pending ∧ InWindow m c.createdAt

instance (dealerId : ℕ) (m : Month) (c : CommissionLog) : Decidable (Due dealerId m c) := by
  unfold Due
  infer_instance

def Charged (dealerId : ℕ) (m : Month) (cb : Chargeback) : Prop :=
  cb.dealerId = dealerId ∧ cb.status = .pending ∧ InWindow m cb.createdAt

instance (dealerId : ℕ) (m : Month) (cb : Chargeback) : Decidable (Charged dealerId m cb) := by
  unfold Charged
  infer_instance

def swapRevenue (dealerId : ℕ) (m : Month) (db : Db) : ℤ :=
  match db.dealerProfiles.find? fun d => d.userId = dealerId with
  | none => 0
  | some profile =>
    let stationIds := (db.stations.filter fun s => s.dealerId = some profile.id).map Station.id
    db.swapSessions.sum fun s =>
      if s.stationId ∈ stationIds ∧ s.status = "completed" ∧ s.paymentStatus = "paid" ∧
        ∃ t ∈ s.completedAt, InWindow m t then s.swapAmount else 0

/-- 18 percent, rounded to hundredths. -/
def gst (amount : ℤ) : ℤ := roundHalfEven (18 * amount) 100

def newSettlement (dealerId : ℕ) (month : String) (m : Month) (db : Db) (id : ℕ) : Settlement :=
  let totalCommission := db.commissionLogs.sum fun c => if Due dealerId m c then c.amount else 0
  let chargebackAmount :=
    db.chargebacks.sum fun cb => if Charged dealerId m cb then cb.amount else 0
  { id, dealerId := some dealerId, settlementMonth := month, startDate := m.start
    endDate := endDate m, dueDate := some (m.next.start + 9 * day)
    totalRevenue := swapRevenue dealerId m db, totalCommission, chargebackAmount
    taxAmount := gst totalCommission, netPayable := max 0 (totalCommission - chargebackAmount)
    status := .generated }

def linkTo (settlementId : ℕ) (c : CommissionLog) : CommissionLog :=
  { c with settlementId := some settlementId, status := .processing }

/-- The commissions and the chargebacks are linked to the settlement. -/
def linkRows (dealerId : ℕ) (m : Month) (settlementId : ℕ) (db : Db) : Db :=
  { db with
    commissionLogs := db.commissionLogs.update (fun c => Due dealerId m c) (linkTo settlementId)
      fun _ => rfl
    chargebacks := db.chargebacks.update (fun cb => Charged dealerId m cb)
      (fun cb => { cb with settlementId := some settlementId, status := .deducted }) fun _ => rfl }

def generateMonthlySettlement (dealerId : ℕ) (month : String) (db : Db) :
    Except Exc Settlement × Db :=
  match parseMonth month with
  | .error e => (.error e, db)
  | .ok m =>
    match db.settlements.find? fun s => s.dealerId = some dealerId ∧ s.settlementMonth = month with
    | some existing => (.ok existing, db)
    | none =>
      let settlement := newSettlement dealerId month m db db.settlements.freshKey
      (.ok settlement, linkRows dealerId m settlement.id
        { db with settlements := db.settlements.add (newSettlement dealerId month m db) })

/-! ## Events -/

inductive Event where
  /-- a commission is logged -/
  | earn (dealerId : Option ℕ) (amount : ℤ) (createdAt : ℕ)
  | generate (now dealerId : ℕ) (month : String)

def eventStep (db : Db) : Event → Db
  | .earn dealerId amount createdAt =>
    { db with
      commissionLogs := db.commissionLogs.add fun id => { id, dealerId, amount, createdAt } }
  | .generate _ dealerId month => (generateMonthlySettlement dealerId month db).2

def IsFor (dealerId : Option ℕ) (m : Month) (s : Settlement) : Prop :=
  s.dealerId = dealerId ∧ parseMonth s.settlementMonth = .ok m

/-- The month of the time has no settlement yet, and the time is not in its last second. -/
def Open (dealerId : Option ℕ) (createdAt : ℕ) (settlements : Table Settlement) : Prop :=
  ∀ m : Month, m.Contains createdAt →
    createdAt ≤ endDate m ∧ ∀ s ∈ settlements, ¬ IsFor dealerId m s

/-- A commission is logged while its month is open. -/
def LoggedInTime (db : Db) : Event → Prop
  | .earn dealerId _ createdAt => Open dealerId createdAt db.settlements
  | .generate _ _ _ => True

def linkedSum (logs : Table CommissionLog) (settlementId : ℕ) : ℤ :=
  logs.sum fun c => if c.settlementId = some settlementId then c.amount else 0

/-- The commission is linked to the settlement of its month, which is worth its commissions. -/
def SettledFor (db : Db) (c : CommissionLog) (m : Month) : Prop :=
  ∃ s ∈ db.settlements, c.settlementId = some s.id ∧ IsFor c.dealerId m s ∧
    s.totalCommission = linkedSum db.commissionLogs s.id

/-- Pending commissions are not linked. -/
def PendingUnlinked (db : Db) : Prop :=
  ∀ c ∈ db.commissionLogs, c.status = .pending → c.settlementId = none

structure Partitioned (db : Db) : Prop where
  unlinked : PendingUnlinked db
  waiting : ∀ c ∈ db.commissionLogs, c.settlementId = none →
    c.status = .pending ∧ Open c.dealerId c.createdAt db.settlements
  linked : ∀ c ∈ db.commissionLogs, ∀ k ∈ c.settlementId,
    ∃ s ∈ db.settlements, s.id = k ∧ ∃ m, IsFor c.dealerId m s ∧ m.Contains c.createdAt
  totals : ∀ s ∈ db.settlements, s.totalCommission = linkedSum db.commissionLogs s.id

theorem Partitioned.settled {db : Db} (h : Partitioned db) {c : CommissionLog}
    (hc : c ∈ db.commissionLogs) {m : Month} (hm : m.Contains c.createdAt)
    (hgenerated : ∃ s ∈ db.settlements, IsFor c.dealerId m s) : SettledFor db c m := by
  rcases hlink : c.settlementId with _ | k
  · obtain ⟨s, hs, hfor⟩ := hgenerated
    exact absurd hfor (((h.waiting c hc hlink).2 m hm).2 s hs)
  · obtain ⟨s, hs, rfl, m', hfor, hm'⟩ := h.linked c hc k hlink
    obtain rfl := Month.eq_of_contains hm hm'
    exact ⟨s, hs, hlink, hfor, h.totals s hs⟩

/-! ## What a call does -/

theorem generate_cases (dealerId : ℕ) (month : String) (db : Db) :
    ((generateMonthlySettlement dealerId month db).2 = db ∧
      ∀ m, parseMonth month = .ok m → ∃ s ∈ db.settlements, IsFor (some dealerId) m s) ∨
    ∃ m, parseMonth month = .ok m ∧ (generateMonthlySettlement dealerId month db).2 =
      linkRows dealerId m db.settlements.freshKey
        { db with settlements := db.settlements.add (newSettlement dealerId month m db) } := by
  unfold generateMonthlySettlement
  rcases hmonth : parseMonth month with e | m
  · exact .inl ⟨rfl, fun m hm => by cases hm⟩
  · dsimp only
    rcases hfound : db.settlements.find? fun s => s.dealerId = some dealerId ∧
      s.settlementMonth = month with _ | existing
    · exact .inr ⟨m, rfl, rfl⟩
    · refine .inl ⟨rfl, ?_⟩
      rintro m' hm'
      obtain rfl := Except.ok.inj hm'
      have hprop := Table.find?_prop hfound
      rw [decide_eq_true_eq] at hprop
      obtain ⟨hdealer, htext⟩ := hprop
      refine ⟨existing, Table.find?_mem hfound, hdealer, ?_⟩
      rw [htext]
      exact hmonth

variable {month : String}

variable {s : Settlement}

section

variable {dealerId : ℕ} {m : Month} {k : ℕ} {db : Db}

theorem mem_linkRows {x : CommissionLog} : x ∈ (linkRows dealerId m k db).commissionLogs ↔
    ∃ c ∈ db.commissionLogs, (if Due dealerId m c then linkTo k c else c) = x := by
  have h : x ∈ db.commissionLogs.update (fun c => Due dealerId m c) (linkTo k) (fun _ => rfl) ↔ _ :=
    Table.mem_update
  simp only [decide_eq_true_eq] at h
  exact h

theorem mem_settlements :
    s ∈ (linkRows dealerId m k
        { db with
          settlements := db.settlements.add (newSettlement dealerId month m db) }).settlements ↔
      s ∈ db.settlements ∨ s = newSettlement dealerId month m db db.settlements.freshKey :=
  Table.mem_add_mk fun _ => rfl

theorem linkedSum_linkRows_other (h : PendingUnlinked db) {j : ℕ} (hj : j ≠ k) :
    linkedSum (linkRows dealerId m k db).commissionLogs j = linkedSum db.commissionLogs j := by
  have hsum : linkedSum (linkRows dealerId m k db).commissionLogs j = _ :=
    Table.sum_update (f := linkTo k) (fun _ => rfl) _
  rw [hsum]
  refine Table.sum_congr fun c hc => ?_
  by_cases hdue : Due dealerId m c
  · have hlink : (linkTo k c).settlementId = some k := rfl
    have hnone := h c hc hdue.2.1
    rw [if_pos (decide_eq_true hdue), hlink, hnone, if_neg fun hk => hj (Option.some.inj hk).symm,
      if_neg nofun]
  · rw [if_neg (by rwa [decide_eq_true_eq])]

theorem linkedSum_linkRows_new (hnew : ∀ c ∈ db.commissionLogs, c.settlementId ≠ some k) :
    linkedSum (linkRows dealerId m k db).commissionLogs k =
      db.commissionLogs.sum fun c => if Due dealerId m c then c.amount else 0 := by
  have hsum : linkedSum (linkRows dealerId m k db).commissionLogs k = _ :=
    Table.sum_update (f := linkTo k) (fun _ => rfl) _
  rw [hsum]
  refine Table.sum_congr fun c hc => ?_
  by_cases hdue : Due dealerId m c
  · have hlink : (linkTo k c).settlementId = some k := rfl
    rw [if_pos (decide_eq_true hdue), if_pos hlink, if_pos hdue]
    rfl
  · rw [if_neg (by rwa [decide_eq_true_eq]), if_neg (hnew c hc), if_neg hdue]

end

/-! ## Runs -/

/-- A link is never changed. -/
def LinksKept (db db' : Db) : Prop :=
  ∀ c ∈ db.commissionLogs, ∀ k ∈ c.settlementId,
    ∃ c' ∈ db'.commissionLogs, c'.id = c.id ∧ c'.settlementId = some k

theorem step_linksKept {db : Db} (h : PendingUnlinked db) (event : Event) :
    PendingUnlinked (eventStep db event) ∧ LinksKept db (eventStep db event) := by
  cases event with
  | earn dealerId amount createdAt =>
    refine ⟨fun c hc hpending => ?_, fun c hc k hk => ⟨c, Table.mem_add.mpr (.inl hc), rfl, hk⟩⟩
    rcases Table.mem_add.mp hc with hc | rfl
    · exact h c hc hpending
    · rfl
  | generate now dealerId month =>
    unfold eventStep
    dsimp only
    rcases generate_cases dealerId month db with ⟨hsame, -⟩ | ⟨m, -, hrun⟩
    · rw [hsame]
      exact ⟨h, fun c hc k hk => ⟨c, hc, rfl, hk⟩⟩
    · rw [hrun]
      refine ⟨fun x hx hpending => ?_, fun c hc k hk => ⟨c, mem_linkRows.mpr ⟨c, hc, ?_⟩, rfl, hk⟩⟩
      · obtain ⟨c, hc, rfl⟩ := mem_linkRows.mp hx
        split_ifs at hpending ⊢
        · cases hpending
        · exact h c hc hpending
      · refine if_neg fun hdue => ?_
        rw [h c hc hdue.2.1] at hk
        cases hk

theorem earn_partitioned {db : Db} (h : Partitioned db) {dealerId : Option ℕ} {amount : ℤ}
    {createdAt : ℕ} (hopen : Open dealerId createdAt db.settlements) :
    Partitioned (eventStep db (.earn dealerId amount createdAt)) := by
  refine ⟨(step_linksKept h.unlinked _).1, ?_, ?_, ?_⟩
  · intro c hc hnone
    rcases Table.mem_add.mp hc with hc | rfl
    · exact h.waiting c hc hnone
    · exact ⟨rfl, hopen⟩
  · intro c hc k hk
    rcases Table.mem_add.mp hc with hc | rfl
    · exact h.linked c hc k hk
    · cases hk
  · intro s hs
    rw [h.totals s hs]
    have hsum :
        linkedSum (eventStep db (.earn dealerId amount createdAt)).commissionLogs s.id = _ :=
      Table.sum_add _
    rw [hsum]
    have hnone : (none : Option ℕ) ≠ some s.id := nofun
    rw [if_neg hnone, add_zero]
    rfl

theorem settled_partitioned {db : Db} (h : Partitioned db) {dealerId : ℕ}
    {m : Month} (hmonth : parseMonth month = .ok m) :
    Partitioned (linkRows dealerId m db.settlements.freshKey
      { db with settlements := db.settlements.add (newSettlement dealerId month m db) }) := by
  set k := db.settlements.freshKey with hk
  set added : Db :=
    { db with settlements := db.settlements.add (newSettlement dealerId month m db) }
    with hadded
  have hfor : IsFor (some dealerId) m (newSettlement dealerId month m db k) := ⟨rfl, hmonth⟩
  have hnew : ∀ c ∈ added.commissionLogs, c.settlementId ≠ some k := by
    intro c hc hlink
    obtain ⟨s, hs, hid, -⟩ := h.linked c hc k hlink
    exact absurd (Table.key_lt_freshKey hs) (by rw [show Row.key s = k from hid]; exact lt_irrefl k)
  have hunlinked : PendingUnlinked added := h.unlinked
  refine ⟨?_, ?_, ?_, ?_⟩
  · intro x hx hpending
    obtain ⟨c, hc, rfl⟩ := mem_linkRows.mp hx
    split_ifs at hpending ⊢
    · cases hpending
    · exact h.unlinked c hc hpending
  · intro x hx hnone
    obtain ⟨c, hc, rfl⟩ := mem_linkRows.mp hx
    by_cases hdue : Due dealerId m c
    · rw [if_pos hdue] at hnone
      cases hnone
    · rw [if_neg hdue] at hnone ⊢
      obtain ⟨hpending, hopen⟩ := h.waiting c hc hnone
      refine ⟨hpending, fun m' hm' => ⟨(hopen m' hm').1, fun s hs hs' => ?_⟩⟩
      rcases mem_settlements.mp hs with hs | rfl
      · exact (hopen m' hm').2 s hs hs'
      · obtain ⟨hdealer, htext⟩ := hs'
        obtain rfl : m = m' := Except.ok.inj (hmonth.symm.trans htext)
        exact hdue ⟨hdealer.symm, hpending, hm'.1, (hopen m hm').1⟩
  · intro x hx j hj
    obtain ⟨c, hc, rfl⟩ := mem_linkRows.mp hx
    by_cases hdue : Due dealerId m c
    · rw [if_pos hdue] at hj ⊢
      cases hj
      have hlt := Month.start_lt_next m
      obtain ⟨hdealer, -, hstart, hend⟩ := hdue
      refine ⟨_, mem_settlements.mpr (.inr rfl), rfl, m, ?_, hstart, ?_⟩
      · have hsame : (linkTo k c).dealerId = some dealerId := hdealer
        rw [hsame]
        exact hfor
      · have htime : (linkTo k c).createdAt ≤ m.next.start - second := hend
        have hpos : 0 < second := by decide
        omega
    · rw [if_neg hdue] at hj ⊢
      obtain ⟨s, hs, hlinked⟩ := h.linked c hc j hj
      exact ⟨s, mem_settlements.mpr (.inl hs), hlinked⟩
  · intro s hs
    rcases mem_settlements.mp hs with hs | rfl
    · have hne : s.id ≠ k := (Table.key_lt_freshKey hs).ne
      rw [linkedSum_linkRows_other hunlinked hne]
      exact h.totals s hs
    · exact (linkedSum_linkRows_new hnew).symm

theorem step_partitioned {db : Db} (h : Partitioned db) (event : Event)
    (hlogged : LoggedInTime db event) : Partitioned (eventStep db event) := by
  cases event with
  | earn dealerId amount createdAt => exact earn_partitioned h hlogged
  | generate now dealerId month =>
    unfold eventStep
    dsimp only
    rcases generate_cases dealerId month db with ⟨hsame, -⟩ | ⟨m, hmonth, hrun⟩
    · rw [hsame]
      exact h
    · rw [hrun]
      exact settled_partitioned h hmonth

/-! ## A settled month -/

def SettledAfterEnd (events : List Event) (dealerId : ℕ) (m : Month) : Prop :=
  ∃ now month, .generate now dealerId month ∈ events ∧ parseMonth month = .ok m ∧
    m.next.start ≤ now

theorem step_settlements {db : Db} (h : s ∈ db.settlements) (event : Event) :
    s ∈ (eventStep db event).settlements := by
  cases event with
  | earn dealerId amount createdAt => exact h
  | generate now dealerId month =>
    unfold eventStep
    dsimp only
    rcases generate_cases dealerId month db with ⟨hsame, -⟩ | ⟨m, -, hrun⟩
    · rw [hsame]
      exact h
    · rw [hrun]
      exact mem_settlements.mpr (.inl h)

theorem generate_isFor {dealerId : ℕ} {m : Month}
    (hmonth : parseMonth month = .ok m) (db : Db) (now : ℕ) :
    ∃ s ∈ (eventStep db (.generate now dealerId month)).settlements, IsFor (some dealerId) m s := by
  unfold eventStep
  dsimp only
  rcases generate_cases dealerId month db with ⟨hsame, hfound⟩ | ⟨m', hmonth', hrun⟩
  · rw [hsame]
    exact hfound m hmonth
  · rw [hrun]
    obtain rfl : m = m' := Except.ok.inj (hmonth.symm.trans hmonth')
    exact ⟨_, mem_settlements.mpr (.inr rfl), rfl, hmonth⟩

theorem run_isFor {events : List Event} {dealerId : ℕ} {m : Month}
    (h : SettledAfterEnd events dealerId m) (db : Db) :
    ∃ s ∈ (run eventStep db events).settlements, IsFor (some dealerId) m s := by
  obtain ⟨now, month, hmem, hmonth, -⟩ := h
  obtain ⟨pre, post, rfl⟩ := List.append_of_mem hmem
  obtain ⟨s, hs, hfor⟩ := generate_isFor hmonth (run eventStep db pre) now
  rw [run_append, run_cons]
  have hkept : s ∈ (run eventStep (eventStep (run eventStep db pre) (.generate now dealerId month))
      post).settlements :=
    run_invariant (I := fun db : Db => s ∈ db.settlements)
      (fun _ event h => step_settlements h event) hs post
  exact ⟨s, hkept, hfor⟩

/-- A store of pending commissions, before its first settlement. -/
structure BeforeSettlement (db : Db) : Prop where
  settlements : ∀ s, s ∉ db.settlements
  pending : ∀ c ∈ db.commissionLogs, c.status = .pending ∧ c.settlementId = none

theorem BeforeSettlement.partitioned {db : Db} (h : BeforeSettlement db)
    (hopen : ∀ c ∈ db.commissionLogs, Open c.dealerId c.createdAt db.settlements) :
    Partitioned db := by
  refine ⟨fun c hc _ => (h.pending c hc).2, fun c hc _ => ⟨(h.pending c hc).1, hopen c hc⟩, ?_, ?_⟩
  · intro c hc k hk
    rw [(h.pending c hc).2] at hk
    cases hk
  · exact fun s hs => absurd hs (h.settlements s)

/-- **Settlement is a partition.**  No link is ever changed.  If no commission is in the last second
of its month, and none is logged after its month has been settled, then every commission of a month
that has been settled is linked to the settlement of that month, whose total is the sum of the
commissions linked to it. -/
theorem settlements_partition (db : Db) (events : List Event) (hstart : BeforeSettlement db)
    (hopen : ∀ c ∈ db.commissionLogs, Open c.dealerId c.createdAt db.settlements)
    (hlogged : Along eventStep LoggedInTime db events) :
    (∀ pre post, events = pre ++ post →
      LinksKept (run eventStep db pre) (run eventStep db events)) ∧
    ∀ c ∈ (run eventStep db events).commissionLogs, ∀ dealerId ∈ c.dealerId, ∀ m : Month,
      m.Contains c.createdAt → SettledAfterEnd events dealerId m →
        SettledFor (run eventStep db events) c m := by
  constructor
  · rintro pre post rfl
    have hunlinked : PendingUnlinked (run eventStep db pre) :=
      run_invariant (I := PendingUnlinked) (fun _ event h => (step_linksKept h event).1)
        (hstart.partitioned hopen).unlinked pre
    rw [run_append]
    refine run_relation (I := PendingUnlinked) (fun db c hc k hk => ⟨c, hc, rfl, hk⟩) ?_
      (fun _ event h => step_linksKept h event) hunlinked post
    intro db₁ db₂ db₃ h h' c hc k hk
    obtain ⟨c', hc', hid, hk'⟩ := h c hc k hk
    obtain ⟨c'', hc'', hid', hk''⟩ := h' c' hc' k hk'
    exact ⟨c'', hc'', hid'.trans hid, hk''⟩
  · intro c hc dealerId hdealer m hm hsettled
    have hfinal : Partitioned (run eventStep db events) :=
      run_invariant_of_along (I := Partitioned) (C := LoggedInTime)
        (fun _ event h hC => step_partitioned h event hC) (hstart.partitioned hopen) hlogged
    obtain ⟨s, hs, hfor⟩ := run_isFor hsettled db
    refine hfinal.settled hc hm ⟨s, hs, ?_⟩
    rw [hdealer]
    exact hfor

/-- February 2025, which ends at 63876384000 seconds. -/
def february : Month := ⟨2025, 2, by decide, by decide⟩

/-- Two commissions of February 2025. -/
def februaryLogs (first second : ℕ) : Db :=
  { commissionLogs := ((Table.empty (α := CommissionLog)).add fun id =>
        { id, dealerId := some 7, amount := 5000, createdAt := first }).add fun id =>
        { id, dealerId := some 7, amount := 300, createdAt := second } }

theorem settlements_partition_sample :
    (run eventStep (februaryLogs 63875000000000000 63876383000000000)
      [.generate 63876384000000000 7 "2025-02"]).settlements.rows.length = 1 ∧
    ∀ c ∈ (run eventStep (februaryLogs 63875000000000000 63876383000000000)
        [.generate 63876384000000000 7 "2025-02"]).commissionLogs,
      ∀ dealerId ∈ c.dealerId, ∀ m : Month, m.Contains c.createdAt →
        SettledAfterEnd [.generate 63876384000000000 7 "2025-02"] dealerId m →
          SettledFor (run eventStep (februaryLogs 63875000000000000 63876383000000000)
            [.generate 63876384000000000 7 "2025-02"]) c m := by
  have hbefore : BeforeSettlement (februaryLogs 63875000000000000 63876383000000000) :=
    ⟨by decide, by decide⟩
  have hlogged : Along eventStep LoggedInTime (februaryLogs 63875000000000000 63876383000000000)
      [.generate 63876384000000000 7 "2025-02"] := ⟨trivial, trivial⟩
  refine ⟨by decide, (settlements_partition _ _ hbefore ?_ hlogged).2⟩
  have hrows : ∀ c ∈ (februaryLogs 63875000000000000 63876383000000000).commissionLogs,
      february.Contains c.createdAt ∧ c.createdAt ≤ endDate february := by decide
  intro c hc m hm
  obtain ⟨hfebruary, hend⟩ := hrows c hc
  obtain rfl := Month.eq_of_contains hfebruary hm
  exact ⟨hend, fun s hs => absurd hs (hbefore.settlements s)⟩

/-- **A commission of the last half second** of February, and one that is logged after February has
been settled early, are left over. -/
theorem commission_left_over :
    BeforeSettlement (februaryLogs 63875000000000000 63876383999500000) ∧
    (let events : List Event := [.generate 63876000000000000 7 "2025-02",
        .earn (some 7) 900 63876100000000000, .generate 63876384000000000 7 "2025-02"]
     let db := run eventStep (februaryLogs 63875000000000000 63876383999500000) events
     SettledAfterEnd events 7 february ∧
      ∀ k ∈ [2, 3], ∃ c ∈ db.commissionLogs, c.id = k ∧ c.dealerId = some 7 ∧
        february.Contains c.createdAt ∧ ¬ SettledFor db c february) := by
  refine ⟨⟨by decide, by decide⟩, ⟨_, _, List.mem_cons_of_mem _ (List.mem_cons_of_mem _
    List.mem_cons_self), by decide, by decide⟩, ?_⟩
  have hrows : ∀ k ∈ [2, 3], ∃ c ∈ (run eventStep
      (februaryLogs 63875000000000000 63876383999500000)
        [.generate 63876000000000000 7 "2025-02", .earn (some 7) 900 63876100000000000,
          .generate 63876384000000000 7 "2025-02"]).commissionLogs,
      c.id = k ∧ c.dealerId = some 7 ∧ february.Contains c.createdAt ∧ c.settlementId = none := by
    decide
  intro k hk
  obtain ⟨c, hc, hid, hdealer, hfebruary, hnone⟩ := hrows k hk
  refine ⟨c, hc, hid, hdealer, hfebruary, ?_⟩
  rintro ⟨s, -, hlink, -⟩
  rw [hnone] at hlink
  cases hlink

end WezuBackend.Settlements.Months
