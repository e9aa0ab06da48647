import WezuBackend.Settlements.Months

/-!
# Chargebacks and what they take off the settlements

A settlement takes all pending chargebacks of its month and marks them as deducted.  Its net amount
is cut off at zero, so it is reduced by the chargebacks only as far as the commission goes
(`generate_shortfall`).  The rest is carried to no later month.  So the deducted chargebacks are
what the net amounts were reduced by if and only if no month has more chargebacks than commission
(`chargebacks_conserved`).
-/

namespace WezuBackend.Settlements.Chargebacks

open Lib.Tables Lib.Runs Settlements.Model Settlements.Months

/-! ## Sums -/

/-- What the pending commissions of the dealer's month add up to. -/
def commissionDue (dealerId : ℕ) (m : Month) (db : Db) : ℤ :=
  db.commissionLogs.sum fun c => if Due dealerId m c then c.amount else 0

/-- What the pending chargebacks of the dealer's month add up to. -/
def chargesDue (dealerId : ℕ) (m : Month) (db : Db) : ℤ :=
  db.chargebacks.sum fun cb => if Charged dealerId m cb then cb.amount else 0

def deducted (dealerId : ℕ) (db : Db) : ℤ :=
  db.chargebacks.sum fun cb => if cb.dealerId = dealerId ∧ cb.status =
    .deducted then cb.amount else 0

/-- By how much the net amounts of the dealer's settlements are below their commissions. -/
def reduced (dealerId : ℕ) (db : Db) : ℤ :=
  db.settlements.sum fun s =>
    if s.dealerId = some dealerId then s.totalCommission - s.netPayable else 0

def forgotten (dealerId : ℕ) (db : Db) : ℤ := deducted dealerId db - reduced dealerId db

/-! ## What happens -/

inductive Entry where
  /-- a commission is logged, or a month is settled -/
  | event (event : Event)
  | charge (dealerId : ℕ) (amount : ℤ) (createdAt : ℕ)

def newChargeback (dealerId : ℕ) (amount : ℤ) (createdAt id : ℕ) : Chargeback :=
  { id, dealerId, amount, createdAt }

theorem key_newChargeback (dealerId : ℕ) (amount : ℤ) (createdAt id : ℕ) :
    Row.key (newChargeback dealerId amount createdAt id) = id := rfl

def entryStep (db : Db) : Entry → Db
  | .event event => eventStep db event
  | .charge dealerId amount createdAt =>
    { db with
      chargebacks := db.chargebacks.add (newChargeback dealerId amount createdAt)
        (key_newChargeback dealerId amount createdAt) }

def Unsettled (dealerId : ℕ) (month : String) (db : Db) : Prop :=
  ∀ s ∈ db.settlements, ¬ (s.dealerId = some dealerId ∧ s.settlementMonth = month)

/-- A month of the dealer that is settled has no more chargebacks than commission. -/
def Covered (dealerId : ℕ) (db : Db) : Entry → Prop
  | .event (.generate _ dealerId' month) => dealerId' = dealerId → Unsettled dealerId month db →
      ∀ m, parseMonth month = .ok m → chargesDue dealerId m db ≤ commissionDue dealerId m db
  | _ => True

/-! ## One settlement -/

theorem generate_of_settled {dealerId : ℕ} {month : String} {db : Db}
    (h : ¬ Unsettled dealerId month db) : (generateMonthlySettlement dealerId month db).2 = db := by
  unfold generateMonthlySettlement
  rcases parseMonth month with e | m
  · rfl
  · rcases hfound : db.settlements.find? fun s => s.dealerId = some dealerId ∧
      s.settlementMonth = month with _ | existing
    · refine absurd (fun s hs hsame => ?_) h
      have hnone := Table.find?_eq_none.mp hfound s hs
      rw [decide_eq_false_iff_not] at hnone
      exact hnone hsame
    · rfl

theorem generate_of_unsettled {dealerId : ℕ} {month : String} {db : Db} {m : Month}
    (hmonth : parseMonth month = .ok m) (h : Unsettled dealerId month db) :
    (generateMonthlySettlement dealerId month db).2 =
      linkRows dealerId m db.settlements.freshKey
        { db with settlements := db.settlements.add (newSettlement dealerId month m db) } := by
  rcases hfound : db.settlements.find? fun s => s.dealerId = some dealerId ∧
    s.settlementMonth = month with _ | existing
  · unfold generateMonthlySettlement
    rw [hmonth]
    dsimp only
    rw [hfound]
    rfl
  · have hprop := Table.find?_prop hfound
    rw [decide_eq_true_eq] at hprop
    exact absurd hprop (h existing (Table.find?_mem hfound))

section

variable {dealerId dealerId' : ℕ} {month : String} {m : Month} {db : Db}

theorem deducted_linkRows (k : ℕ) : deducted dealerId (linkRows dealerId' m k db) =
    deducted dealerId db + if dealerId' = dealerId then chargesDue dealerId m db else 0 := by
  have hsum : deducted dealerId (linkRows dealerId' m k db) = _ :=
    Table.sum_update (f := fun cb : Chargeback =>
      { cb with settlementId := some k, status := .deducted }) (fun _ => rfl) _
  rw [hsum]
  by_cases hdealer : dealerId' = dealerId
  · subst hdealer
    rw [if_pos rfl]
    unfold deducted chargesDue
    rw [← Table.sum_add_distrib]
    refine Table.sum_congr fun cb _ => ?_
    by_cases hcharged : Charged dealerId' m cb
    · have hpending : cb.status ≠ .deducted := by
        rw [hcharged.2.1]
        decide
      simp [hcharged, hcharged.1, hpending]
    · simp [hcharged]
  · rw [if_neg hdealer, add_zero]
    refine Table.sum_congr fun cb _ => ?_
    by_cases hcharged : Charged dealerId' m cb
    · have hother : cb.dealerId ≠ dealerId := by
        rw [hcharged.1]
        exact hdealer
      simp [hother]
    · simp [hcharged]

/-- The new settlement is reduced by its chargebacks as far as its commission goes. -/
theorem reduced_linkRows (k : ℕ) : reduced dealerId (linkRows dealerId' m k
      { db with settlements := db.settlements.add (newSettlement dealerId' month m db) }) =
    reduced dealerId db + if dealerId' = dealerId then
      min (commissionDue dealerId m db) (chargesDue dealerId m db) else 0 := by
  have hsum : reduced dealerId (linkRows dealerId' m k
      { db with settlements := db.settlements.add (newSettlement dealerId' month m db) }) = _ :=
    Table.sum_add_mk (fun _ => rfl) _
  have hnet : ∀ j, (newSettlement dealerId' month m db j).totalCommission -
      (newSettlement dealerId' month m db j).netPayable =
      min (commissionDue dealerId' m db) (chargesDue dealerId' m db) := by
    intro j
    show commissionDue dealerId' m db -
      max 0 (commissionDue dealerId' m db - chargesDue dealerId' m db) = _
    omega
  rw [hsum, hnet]
  unfold reduced
  congr 1
  by_cases hdealer : dealerId' = dealerId
  · subst hdealer
    rw [if_pos rfl]
    exact if_pos rfl
  · rw [if_neg hdealer]
    exact if_neg fun h => hdealer (Option.some.inj h)

theorem generate_shortfall (now : ℕ) (hmonth : parseMonth month = .ok m)
    (h : Unsettled dealerId' month db) :
    forgotten dealerId (entryStep db (.event (.generate now dealerId' month))) =
      forgotten dealerId db + if dealerId' = dealerId then
        max 0 (chargesDue dealerId m db - commissionDue dealerId m db) else 0 := by
  have hrun : entryStep db (.event (.generate now dealerId' month)) = _ :=
    generate_of_unsettled hmonth h
  unfold forgotten
  rw [hrun, reduced_linkRows, deducted_linkRows]
  have hsame : deducted dealerId
      { db with settlements := db.settlements.add (newSettlement dealerId' month m db) } =
      deducted dealerId db := rfl
  have hcharges : chargesDue dealerId m
      { db with settlements := db.settlements.add (newSettlement dealerId' month m db) } =
      chargesDue dealerId m db := rfl
  rw [hsame, hcharges]
  split_ifs <;> omega

theorem entry_idle {entry : Entry} (h : ∀ now d month m, entry = .event (.generate now d month) →
      parseMonth month = .ok m → ¬ Unsettled d month db) :
    forgotten dealerId (entryStep db entry) = forgotten dealerId db := by
  cases entry with
  | charge d amount createdAt =>
    unfold forgotten
    have hsum : deducted dealerId (entryStep db (.charge d amount createdAt)) = _ :=
      Table.sum_add_mk (key_newChargeback d amount createdAt) _
    have hpending :
      ¬ ((newChargeback d amount createdAt db.chargebacks.freshKey).dealerId = dealerId ∧
        (newChargeback d amount createdAt db.chargebacks.freshKey).status = .deducted) := by
      rintro ⟨-, ⟨⟩⟩
    rw [hsum, if_neg hpending, add_zero]
    rfl
  | event event =>
    cases event with
    | earn d amount createdAt => rfl
    | generate now d month =>
      have hsame : entryStep db (.event (.generate now d month)) = db := by
        by_cases hunsettled : Unsettled d month db
        · rcases hmonth : parseMonth month with e | m
          · show (generateMonthlySettlement d month db).2 = db
            unfold generateMonthlySettlement
            rw [hmonth]
          · exact absurd hunsettled (h now d month m rfl hmonth)
        · exact generate_of_settled hunsettled
      rw [hsame]

end

/-! ## Runs -/

/-- **One step** forgets nothing if and only if the month it settles is covered. -/
theorem step_covered (dealerId : ℕ) (db : Db) (entry : Entry) :
    forgotten dealerId db ≤ forgotten dealerId (entryStep db entry) ∧
      (forgotten dealerId (entryStep db entry) = forgotten dealerId db ↔
        Covered dealerId db entry) := by
  by_cases hsettles : ∃ now d month m, entry = .event (.generate now d month) ∧
      parseMonth month = .ok m ∧ Unsettled d month db
  · obtain ⟨now, d, month, m, rfl, hmonth, hunsettled⟩ := hsettles
    rw [generate_shortfall now hmonth hunsettled]
    by_cases hdealer : d = dealerId
    · subst hdealer
      rw [if_pos rfl]
      refine ⟨by omega, ⟨fun hsame => ?_, fun hcovered => ?_⟩⟩
      · intro _ _ m' hm'
        obtain rfl := Except.ok.inj (hmonth.symm.trans hm')
        omega
      · have hle := hcovered rfl hunsettled m hmonth
        omega
    · rw [if_neg hdealer, add_zero]
      exact ⟨le_rfl, fun _ hsame => absurd hsame hdealer, fun _ => rfl⟩
  · have hidle : forgotten dealerId (entryStep db entry) = forgotten dealerId db :=
      entry_idle fun now d month m hentry hmonth hunsettled =>
        hsettles ⟨now, d, month, m, hentry, hmonth, hunsettled⟩
    refine ⟨hidle.ge, ⟨fun _ => ?_, fun _ => hidle⟩⟩
    cases entry with
    | charge d amount createdAt => trivial
    | event event =>
      cases event with
      | earn d amount createdAt => trivial
      | generate now d month =>
        intro hd hunsettled m hmonth
        subst hd
        exact absurd ⟨now, d, month, m, rfl, hmonth, hunsettled⟩ hsettles

/-- **Chargebacks are conserved.**  Over any run, the chargebacks marked as deducted add up to what
the net amounts were reduced by if and only if each month of the dealer had, when it was settled, no
more chargebacks than commission. -/
theorem chargebacks_conserved (dealerId : ℕ) (db : Db) (entries : List Entry) :
    deducted dealerId (run entryStep db entries) - deducted dealerId db =
        reduced dealerId (run entryStep db entries) - reduced dealerId db ↔
      Along entryStep (Covered dealerId) db entries := by
  have hunchanged := unchanged_iff_along (D := forgotten dealerId)
    (fun db entry => (step_covered dealerId db entry).1) db entries
  have hcovered : Along entryStep
        (fun db entry => forgotten dealerId (entryStep db entry) = forgotten dealerId db) db entries
          ↔
      Along entryStep (Covered dealerId) db entries :=
    along_congr (I := fun _ => True) (fun _ _ _ => trivial)
      (fun db entry _ => (step_covered dealerId db entry).2) trivial entries
  rw [← hcovered, ← hunchanged]
  unfold forgotten
  omega

/-- In January 2025 dealer 5 has a chargeback of 100.00 and a commission of 60.00. -/
def overcharged : List Entry :=
  [.event (.earn (some 5) 6000 63872409600000000), .charge 5 10000 63872409600000001,
    .event (.generate 63875000000000000 5 "2025-01")]

/-- **A chargeback beyond the commission** is forgotten. -/
theorem chargeback_forgotten : ¬ ∀ entries : List Entry,
    deducted 5 (run entryStep {} entries) = reduced 5 (run entryStep {} entries) := by
  intro hclaim
  have hdeducted : deducted 5 (run entryStep {} overcharged) = 10000 := by decide +kernel
  have hreduced : reduced 5 (run entryStep {} overcharged) = 6000 := by decide +kernel
  have hsame := hclaim overcharged
  omega

end WezuBackend.Settlements.Chargebacks
