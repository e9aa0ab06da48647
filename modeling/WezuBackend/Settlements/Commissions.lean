import WezuBackend.Settlements.Months
import WezuBackend.Settlements.Payout
import Mathlib.Algebra.Order.Ring.Rat

/-!
# Each commission is earned and paid once

`CommissionService` logs the commission of a transaction unless there is a log of it that is pending
or paid, and `process_payout` marks a log as paid; `SettlementService` collects pending logs into a
settlement, where they are in processing until the settlement is paid.

A log in processing is none that `calculate_and_log` looks for, so it logs a second commission of
the transaction; and `process_payout` asks neither for the status nor for the settlement, so it pays
what the settlement pays, too (`commission_twice`).  `Sound` is what a run keeps that does neither
(`commissions_once`).
-/

namespace WezuBackend.Settlements.Commissions

open Lib.Tables Lib.Runs Lib.Atomicity.Tx Core.Base Core.Amounts
open Settlements.Model Settlements.Months Settlements.Payout

/-! ## The programs -/

structure Transaction where
  id : ℕ
  transactionType : Option String := none
  amount : ℤ
  deriving DecidableEq, Repr

instance : Row Transaction ℕ := ⟨Transaction.id⟩

structure CommissionConfig where
  id : ℕ
  dealerId : Option ℕ := none
  transactionType : String
  percentage : ℚ := 0
  flatFee : ℚ := 0
  effectiveFrom : ℕ
  effectiveUntil : Option ℕ := none
  isActive : Bool := true
  deriving DecidableEq, Repr

instance : Row CommissionConfig ℕ := ⟨CommissionConfig.id⟩

structure CommissionTier where
  id : ℕ
  configId : ℕ
  minVolume : ℤ := 0
  maxVolume : Option ℤ := none
  percentage : ℚ
  flatFee : ℚ := 0
  deriving DecidableEq, Repr

instance : Row CommissionTier ℕ := ⟨CommissionTier.id⟩

structure Rate where
  percentage : ℚ := 0
  flatFee : ℚ := 0

structure Books where
  db : Db := {}
  transactions : Table Transaction := .empty
  configs : Table CommissionConfig := .empty
  tiers : Table CommissionTier := .empty
  /-- the logs that `process_payout` has paid so far -/
  direct : List ℕ := []

/-- The active configurations of the type that have begun: the rows of the query. -/
def begunConfigs (now : ℕ) (transactionType : String) (books : Books) : List CommissionConfig :=
  books.configs.filter fun c =>
    c.transactionType = transactionType ∧ c.isActive = true ∧ c.effectiveFrom ≤ now

/-- Those of them that have not ended. -/
def activeConfigs (now : ℕ) (transactionType : String) (books : Books) : List CommissionConfig :=
  (begunConfigs now transactionType books).filter fun c => ∀ until_ ∈ c.effectiveUntil, now ≤ until_

/-- The first tier of the configuration, by its least volume, that contains the volume. -/
def tierOf (configId : ℕ) (monthlyVolume : ℤ) (books : Books) : Option CommissionTier :=
  ((books.tiers.filter fun t => t.configId = configId).mergeSort
    fun t t' => t.minVolume ≤ t'.minVolume).find? fun t =>
      t.minVolume ≤ monthlyVolume ∧ ∀ maxVolume ∈ t.maxVolume, monthlyVolume ≤ maxVolume

/-- The configuration by which a dealer is charged: the first one of its own, else the first. -/
def chosenConfig (now : ℕ) (transactionType : String) (dealerId : Option ℕ) (books : Books) :
    Option CommissionConfig :=
  let configs := activeConfigs now transactionType books
  let dealerConfigs := (dealerId.filter (· ≠ 0)).elim [] fun k =>
    configs.filter fun c => c.dealerId = some k
  dealerConfigs.head?.or configs.head?

def rateOf (chosen : Option CommissionConfig) (monthlyVolume : ℤ) (books : Books) : Rate :=
  match chosen with
  | none => {}
  | some chosen =>
    (tierOf chosen.id monthlyVolume books).elim ⟨chosen.percentage, chosen.flatFee⟩ fun tier =>
      ⟨tier.percentage, tier.flatFee⟩

/-- The end of a configuration is stored without a zone, and does not compare with a date that has
one (`zoned`), as the clock's date does. -/
def getApplicableRate (zoned : Bool) (now : ℕ) (transactionType : String) (dealerId : Option ℕ)
    (monthlyVolume : ℤ) (books : Books) : Except Exc Rate :=
  if zoned = true ∧ ∃ c ∈ begunConfigs now transactionType books, c.effectiveUntil ≠ none then
    .error .typeError
  else .ok (rateOf (chosenConfig now transactionType dealerId books) monthlyVolume books)

def commissionAmount (rate : Rate) (transaction : Transaction) : ℤ :=
  let share :=
    if 0 < rate.percentage then |(transaction.amount : ℚ)| * (rate.percentage / 100) else 0
  let fee := if 0 < rate.flatFee then 100 * rate.flatFee else 0
  roundHalfEven (share + fee).num (share + fee).den

/-- The commission that `calculate_and_log` finds for the transaction. -/
def commissionOf (now : ℕ) (transaction : Transaction) (books : Books) : Except Exc ℤ :=
  (getApplicableRate true now (transaction.transactionType.getD "unknown") none 0 books).map
    fun rate => commissionAmount rate transaction

/-- The log of a commission; it has no dealer. -/
def newLog (now transactionId : ℕ) (amount : ℤ) (id : ℕ) : CommissionLog :=
  { id, transactionId := some transactionId, dealerId := none, amount, createdAt := now }

theorem key_newLog (now transactionId : ℕ) (amount : ℤ) (id : ℕ) :
    Row.key (newLog now transactionId amount id) = id := rfl

def withLogs (books : Books) (logs : Table CommissionLog) : Books :=
  { books with db := { books.db with commissionLogs := logs } }

def calculateAndLog (now : ℕ) (transaction : Transaction) (books : Books) :
    Except Exc (Option CommissionLog) × Books :=
  match commissionOf now transaction books with
  | .error e => (.error e, books)
  | .ok amount =>
    if amount ≤ 0 then (.ok none, books)
    else
      match books.transactions.get? transaction.id with
      | none => (.ok none, books)
      | some _ =>
        match books.db.commissionLogs.find? fun c =>
          c.transactionId = some transaction.id ∧ (c.status = .pending ∨ c.status = .paid) with
        | some existing => (.ok (some existing), books)
        | none =>
          (.ok (some (newLog now transaction.id amount books.db.commissionLogs.freshKey)),
            withLogs books (books.db.commissionLogs.add (newLog now transaction.id amount)
              (key_newLog now transaction.id amount)))

def asPaid (c : CommissionLog) : CommissionLog := { c with status := .paid }

theorem key_asPaid (c : CommissionLog) : Row.key (asPaid c) = Row.key c := rfl

/-- Neither the status of the log nor its settlement is asked for. -/
def processPayout (logId : ℕ) (books : Books) : Option CommissionLog × Books :=
  match books.db.commissionLogs.get? logId with
  | none => (none, books)
  | some log =>
    (some (asPaid log),
      { withLogs books (books.db.commissionLogs.update (fun c => c.id = logId) asPaid key_asPaid)
        with
        direct := books.direct ++ [logId] })

/-! ## Runs -/

inductive Action where
  | calculateAndLog (now : ℕ) (transaction : Transaction)
  | generate (dealerId : ℕ) (month : String)
  | pay (payment : Payment)
  | processPayout (logId : ℕ)

def step (books : Books) : Action → Books
  | .calculateAndLog now transaction => (calculateAndLog now transaction books).2
  | .generate dealerId month =>
    { books with db := (generateMonthlySettlement dealerId month books.db).2 }
  | .pay payment => { books with db := paymentStep books.db payment }
  | .processPayout logId => (processPayout logId books).2

/-- How often the log was paid: directly, and with its settlement. -/
def payments (books : Books) (c : CommissionLog) : ℕ :=
  books.direct.count c.id + c.settlementId.elim 0 fun k => books.db.payouts.count k

/-- At most one log of the transaction has not been reversed. -/
def OneLog (logs : Table CommissionLog) : Prop :=
  ∀ t, logs.Unique fun c => c.transactionId = some t ∧ c.status ≠ .reversed

/-- **The claim of a commission**: earned once and paid at most once. -/
def Once (books : Books) : Prop :=
  OneLog books.db.commissionLogs ∧ ∀ c ∈ books.db.commissionLogs, payments books c ≤ 1

/-- `calculate_and_log` is not called for a transaction with a log in processing, and
`process_payout` for pending logs only; nothing fails after a payout. -/
def Careful (books : Books) : Action → Prop
  | .calculateAndLog now transaction => ∀ amount, commissionOf now transaction books = .ok amount →
      0 < amount → books.transactions.get? transaction.id ≠ none →
      ∀ c ∈ books.db.commissionLogs, c.transactionId = some transaction.id → c.status ≠ .processing
  | .generate _ _ => True
  | .pay payment => PaidCleanly books.db payment
  | .processPayout logId => ∀ c ∈ books.db.commissionLogs, c.id = logId → c.status = .pending

/-! ## The logs -/

/-- The logs are in order, those in `direct` having been paid directly. -/
structure LogsSound (direct : List ℕ) (logs : Table CommissionLog) : Prop where
  one : OneLog logs
  unlinked : ∀ c ∈ logs, c.status = .pending → c.settlementId = none
  live : ∀ c ∈ logs, c.settlementId ≠ none → c.status ≠ .reversed
  direct : ∀ k ∈ direct, ∃ c ∈ logs, c.id = k ∧ c.status = .paid ∧ c.settlementId = none

variable {c : CommissionLog}

section

variable {direct : List ℕ} {logs : Table CommissionLog}

/-- A pending log was not paid directly, and neither was one of a settlement. -/
theorem LogsSound.not_direct (h : LogsSound direct logs) (hc : c ∈ logs)
    (hstatus : c.status = .pending ∨ c.settlementId ≠ none) : c.id ∉ direct := by
  intro hk
  obtain ⟨c', hc', hid, hpaid, hnone⟩ := h.direct c.id hk
  obtain rfl := Table.eq_of_key hc' hc hid
  rcases hstatus with hpending | hlinked
  · rw [hpaid] at hpending
    cases hpending
  · exact hlinked hnone

/-- Some live logs are rewritten that nobody has paid directly; they stay live. -/
theorem LogsSound.rewritten (h : LogsSound direct logs) {p : CommissionLog → Bool}
    {f : CommissionLog → CommissionLog} (hf : ∀ c, Row.key (f c) = Row.key c)
    (hsame : ∀ c, (f c).transactionId = c.transactionId)
    (hlive : ∀ c ∈ logs, p c = true → c.status ≠ .reversed ∧ c.id ∉ direct)
    (hstays : ∀ c, (f c).status ≠ .reversed ∧ (f c).status ≠ .pending) :
    LogsSound direct (logs.update p f hf) := by
  -- a live log was live before
  have hback : ∀ c ∈ logs, (if p c then f c else c).status ≠ .reversed → c.status ≠ .reversed := by
    intro c hc hnot
    by_cases hp : p c = true
    · exact (hlive c hc hp).1
    · rwa [if_neg hp] at hnot
  have htransaction : ∀ c, (if p c then f c else c).transactionId = c.transactionId := by
    intro c
    split_ifs
    · exact hsame c
    · rfl
  refine ⟨fun t x hx y hy hxt hyt => ?_, fun x hx hpending => ?_, fun x hx hlinked => ?_,
    fun k hk => ?_⟩
  · obtain ⟨c, hc, rfl⟩ := Table.mem_update.mp hx
    obtain ⟨c', hc', rfl⟩ := Table.mem_update.mp hy
    rw [htransaction] at hxt hyt
    rw [h.one t c hc c' hc' ⟨hxt.1, hback c hc hxt.2⟩ ⟨hyt.1, hback c' hc' hyt.2⟩]
  · obtain ⟨c, hc, rfl⟩ := Table.mem_update.mp hx
    split_ifs at hpending ⊢
    · exact absurd hpending (hstays c).2
    · exact h.unlinked c hc hpending
  · obtain ⟨c, hc, rfl⟩ := Table.mem_update.mp hx
    split_ifs at hlinked ⊢
    · exact (hstays c).1
    · exact h.live c hc hlinked
  · obtain ⟨c, hc, rfl, hpaid, hnone⟩ := h.direct k hk
    have hp : ¬ p c = true := fun hp => (hlive c hc hp).2 hk
    exact ⟨c, Table.mem_update.mpr ⟨c, hc, if_neg hp⟩, rfl, hpaid, hnone⟩

/-- A commission is logged for a transaction without a live log. -/
theorem LogsSound.logged (h : LogsSound direct logs) {now transactionId : ℕ} {amount : ℤ}
    (hfree : ∀ c ∈ logs, c.transactionId = some transactionId → c.status = .reversed) :
    LogsSound direct
      (logs.add (newLog now transactionId amount) (key_newLog now transactionId amount)) := by
  have hmem : ∀ c, c ∈ logs.add (newLog now transactionId amount)
      (key_newLog now transactionId amount) ↔ c ∈ logs ∨ c = newLog now transactionId amount _ :=
    fun c => Table.mem_add
  refine ⟨fun t x hx y hy hxt hyt => ?_, fun x hx hpending => ?_, fun x hx hlinked => ?_,
    fun k hk => ?_⟩
  · rcases (hmem x).mp hx with hx | rfl
    · rcases (hmem y).mp hy with hy | rfl
      · exact h.one t x hx y hy hxt hyt
      · obtain rfl := Option.some.inj hyt.1
        exact absurd (hfree x hx hxt.1) hxt.2
    · rcases (hmem y).mp hy with hy | rfl
      · obtain rfl := Option.some.inj hxt.1
        exact absurd (hfree y hy hyt.1) hyt.2
      · rfl
  · rcases (hmem x).mp hx with hx | rfl
    · exact h.unlinked x hx hpending
    · rfl
  · rcases (hmem x).mp hx with hx | rfl
    · exact h.live x hx hlinked
    · exact absurd rfl hlinked
  · obtain ⟨c, hc, hid, hpaid, hnone⟩ := h.direct k hk
    exact ⟨c, (hmem c).mpr (.inl hc), hid, hpaid, hnone⟩

end

/-! ## Payments of settlements -/

section

variable {direct : List ℕ}

/-- The logs of the tables are in order. -/
def DbSound (direct : List ℕ) (db : Db) : Prop := LogsSound direct db.commissionLogs

theorem payCommissions_sound (settlementId : ℕ) {db : Db} (h : DbSound direct db) :
    DbSound direct (payCommissions settlementId db) := by
  refine LogsSound.rewritten (f := asPaid) h key_asPaid (fun _ => rfl) (fun c hc hp => ?_)
    (fun _ => ⟨by simp [asPaid], by simp [asPaid]⟩)
  have hlinked : c.settlementId ≠ none := by
    rw [of_decide_eq_true hp]
    simp
  exact ⟨h.live c hc hlinked, h.not_direct hc (.inr hlinked)⟩

theorem throughout_executePayout (settlementId : ℕ) (answer : PayoutAnswer) :
    Throughout (DbSound direct) (executePayout settlementId answer) := by
  intro s hc hw
  cases answer with
  | executed reference url => exact ⟨hc, hw⟩
  | failed error => exact ⟨hc, hw⟩

theorem throughout_raiseIf (error : Option String) :
    Throughout (DbSound direct) (raiseIf error) := by
  cases error with
  | none => exact (readOnly_pure _).throughout
  | some e => exact (readOnly_raise e).throughout

theorem throughout_safeCommit (error : Option String) :
    Throughout (DbSound direct) (safeCommit error) := by
  cases error with
  | none => exact throughout_commit
  | some e => exact throughout_rollback.bind fun _ => (readOnly_raise e).throughout

theorem throughout_rewrite (settlementId : ℕ) (f : Settlement → Settlement)
    (hf : ∀ s, (f s).id = s.id) :
    Throughout (DbSound direct)
      (update (rewriteSettlement settlementId f hf) : SettlementTx Unit) :=
  throughout_update fun _ h => h

theorem throughout_paySettlement (now settlementId : ℕ) (c : Circumstances) :
    Throughout (DbSound direct) (paySettlement now settlementId c) := by
  refine (throughout_executePayout _ _).bind fun payout => ?_
  refine (throughout_rewrite _ _ _).bind fun _ => (throughout_raiseIf _).bind fun _ => ?_
  exact throughout_update fun db h => payCommissions_sound settlementId h

theorem throughout_payment (payment : Payment) :
    Throughout (DbSound direct) payment.program := by
  cases payment with
  | batch now month circumstances commitError =>
    refine readOnly_look.throughout.bind fun db => (throughout_forM (fun k => ?_) _).bind fun _ =>
      throughout_safeCommit _
    exact (throughout_paySettlement _ _ _).handle fun e => throughout_rewrite _ _ _
  | single now settlementId c commitError refreshError failureCommitError =>
    refine readOnly_look.throughout.bind fun db => (readOnly_demand _ _).throughout.bind fun _ => ?_
    refine (readOnly_ensure _ _).throughout.bind fun _ => Throughout.handle ?_ fun e => ?_
    · refine (throughout_paySettlement _ _ _).bind fun _ =>
        (throughout_rewrite _ _ _).bind fun _ => ?_
      exact (throughout_safeCommit _).bind fun _ => throughout_raiseIf _
    · refine Throughout.bind (throughout_rewrite _ _ _) fun _ => ?_
      exact (throughout_safeCommit _).bind fun _ => (readOnly_raise _).throughout

end

/-! ## Books -/

structure Sound (books : Books) : Prop where
  logs : LogsSound books.direct books.db.commissionLogs
  once : books.direct.Nodup
  settled : Settled books.db

variable {books : Books}

theorem Sound.payments_le (h : Sound books)
    (hc : c ∈ books.db.commissionLogs) : payments books c ≤ 1 := by
  have hdirect := List.nodup_iff_count_le_one.mp h.once c.id
  unfold payments
  rcases hlink : c.settlementId with _ | k
  · simpa using hdirect
  · have hnot := h.logs.not_direct hc (.inr (by rw [hlink]; simp))
    have hpayouts := List.nodup_iff_count_le_one.mp h.settled.once k
    rw [List.count_eq_zero_of_not_mem hnot, Option.elim_some, zero_add]
    exact hpayouts

theorem settled_withLogs (h : Settled books.db) (logs : Table CommissionLog) :
    Settled (withLogs books logs).db := ⟨h.once, h.marked⟩

theorem calculate_sound (h : Sound books) (now : ℕ) (transaction : Transaction)
    (hcareful : Careful books (.calculateAndLog now transaction)) :
    Sound (step books (.calculateAndLog now transaction)) := by
  unfold step calculateAndLog
  dsimp only
  rcases hcommission : commissionOf now transaction books with e | amount
  · exact h
  dsimp only
  by_cases hamount : amount ≤ 0
  · rw [if_pos hamount]
    exact h
  · rw [if_neg hamount]
    rcases hget : books.transactions.get? transaction.id with _ | locked
    · exact h
    · dsimp only
      rcases hfound : books.db.commissionLogs.find? fun c => c.transactionId = some transaction.id ∧
        (c.status = .pending ∨ c.status = .paid) with _ | existing
      · dsimp only
        refine ⟨h.logs.logged fun c hc ht => ?_, h.once, settled_withLogs h.settled _⟩
        have hnone := Table.find?_eq_none.mp hfound c hc
        have hprocessing := hcareful amount hcommission (by omega) (by rw [hget]; simp) c hc ht
        rw [decide_eq_false_iff_not] at hnone
        rcases hstatus : c.status with _ | _ | _ | _
        · exact absurd ⟨ht, .inl hstatus⟩ hnone
        · exact absurd hstatus hprocessing
        · exact absurd ⟨ht, .inr hstatus⟩ hnone
        · rfl
      · exact h

theorem generate_sound (h : Sound books) (dealerId : ℕ) (month : String) :
    Sound (step books (.generate dealerId month)) := by
  unfold step
  dsimp only
  rcases generate_cases dealerId month books.db with ⟨hsame, -⟩ | ⟨m, -, hrun⟩
  · rw [hsame]
    exact h
  · rw [hrun]
    refine ⟨?_, h.once, h.settled.once, fun k hk => ?_⟩
    · refine LogsSound.rewritten (f := linkTo books.db.settlements.freshKey) h.logs (fun _ => rfl)
        (fun _ => rfl) (fun c hc hp => ?_) (fun c => ⟨by simp [linkTo], by simp [linkTo]⟩)
      have hpending : c.status = .pending := (of_decide_eq_true hp).2.1
      exact ⟨by rw [hpending]; simp, h.logs.not_direct hc (.inl hpending)⟩
    · obtain ⟨s, hs, hid, hpaid⟩ := h.settled.marked k hk
      exact ⟨s, mem_settlements.mpr (.inl hs), hid, hpaid⟩

theorem payout_sound (h : Sound books) (logId : ℕ)
    (hcareful : Careful books (.processPayout logId)) :
    Sound (step books (.processPayout logId)) := by
  unfold step processPayout
  dsimp only
  rcases hget : books.db.commissionLogs.get? logId with _ | log
  · exact h
  · obtain ⟨hmem, rfl⟩ := Table.get?_eq_some.mp hget
    have hpending := hcareful log hmem rfl
    have hnew := h.logs.not_direct hmem (.inl hpending)
    have hrewritten : LogsSound books.direct
        (books.db.commissionLogs.update (fun c => c.id = log.id) asPaid key_asPaid) := by
      refine h.logs.rewritten key_asPaid (fun _ => rfl) (fun c hc hp => ?_)
        (fun c => ⟨by simp [asPaid], by simp [asPaid]⟩)
      obtain rfl := Table.eq_of_key hc hmem (of_decide_eq_true hp)
      exact ⟨by rw [hpending]; simp, hnew⟩
    have hpaid : asPaid log ∈
        books.db.commissionLogs.update (fun c => c.id = log.id) asPaid key_asPaid :=
      Table.mem_update.mpr ⟨log, hmem, if_pos (decide_eq_true rfl)⟩
    refine ⟨⟨hrewritten.one, hrewritten.unlinked, hrewritten.live, fun k hk => ?_⟩, ?_,
      settled_withLogs h.settled _⟩
    · rcases List.mem_append.mp hk with hk | hk
      · exact hrewritten.direct k hk
      · rw [List.mem_singleton.mp hk]
        exact ⟨asPaid log, hpaid, rfl, rfl, h.logs.unlinked log hmem hpending⟩
    · rw [List.nodup_append]
      refine ⟨h.once, List.nodup_singleton _, ?_⟩
      intro k hk k' hk' heq
      rw [heq, List.mem_singleton.mp hk'] at hk
      exact hnew hk

theorem step_sound (h : Sound books) (action : Action)
    (hcareful : Careful books action) : Sound (step books action) := by
  cases action with
  | calculateAndLog now transaction => exact calculate_sound h now transaction hcareful
  | generate dealerId month => exact generate_sound h dealerId month
  | pay payment =>
    exact ⟨(throughout_payment payment).call h.logs, h.once,
      payment_settled h.settled payment hcareful⟩
  | processPayout logId => exact payout_sound h logId hcareful

/-- **Earned and paid once.**  In a run from sound books whose steps are all careful, no transaction
ever has two live commissions, and no commission is paid twice. -/
theorem commissions_once (books : Books) (hstart : Sound books) (actions : List Action)
    (hcareful : Along step Careful books actions) (p q : List Action) (hp : actions = p ++ q) :
    Once (run step books p) := by
  subst hp
  have hsound : Sound (run step books p) :=
    run_invariant_of_along (I := Sound) (fun _ action h hc => step_sound h action hc) hstart
      (along_append.mp hcareful).1
  exact ⟨hsound.logs.one, fun c hc => hsound.payments_le hc⟩

/-! ## Twice -/

theorem sound_of_fresh (hone : OneLog books.db.commissionLogs)
    (hlogs : ∀ c ∈ books.db.commissionLogs, c.settlementId = none)
    (hpayouts : books.db.payouts = []) (hdirect : books.direct = []) : Sound books := by
  refine ⟨⟨hone, fun c hc _ => hlogs c hc, fun c hc hlinked => absurd (hlogs c hc) hlinked, ?_⟩, ?_,
    ?_, ?_⟩
  · rw [hdirect]
    exact fun k hk => absurd hk List.not_mem_nil
  · rw [hdirect]
    exact List.nodup_nil
  · rw [hpayouts]
    exact List.nodup_nil
  · rw [hpayouts]
    exact fun k hk => absurd hk List.not_mem_nil

def swap : Transaction := ⟨9, some "SWAP_FEE", 10000⟩

/-- Dealer 5 has a pending commission of 10.00 of January 2025. -/
def january5 : Books where
  db := { commissionLogs := ⟨[{ id := 1, transactionId := some 9, dealerId := some 5, amount := 1000
                                createdAt := 63872409600000000 }], by decide⟩ }
  transactions := ⟨[swap], by decide⟩
  configs := ⟨[{ id := 1, transactionType := "SWAP_FEE", percentage := 10, effectiveFrom := 0 }],
    by decide⟩

theorem sound_january5 : Sound january5 := by
  refine sound_of_fresh (fun t x hx y hy _ _ => ?_) (by decide) rfl rfl
  rw [List.mem_singleton.mp hx, List.mem_singleton.mp hy]

/-- The commission is settled and paid. -/
def settle : List Action :=
  [.generate 5 "2025-01", .pay (.batch 0 "2025-01" (fun _ => executed) none)]

theorem commissions_once_sample : Once (run step january5 settle) := by
  refine commissions_once january5 sound_january5 settle ⟨trivial, ?_, trivial⟩ settle [] rfl
  exact fun _ _ _ => ⟨rfl, rfl⟩

/-- **A log in processing** is overlooked by `calculate_and_log`, and paid by `process_payout`. -/
theorem commission_twice :
    ¬ Once (run step january5 [.generate 5 "2025-01", .calculateAndLog 63875000000000000 swap]) ∧
    ¬ Once (run step january5 [.generate 5 "2025-01", .processPayout 1,
      .pay (.batch 0 "2025-01" (fun _ => executed) none)]) := by
  constructor
  · rintro ⟨hone, -⟩
    have hlogs : ∃ x ∈ (run step january5
          [.generate 5 "2025-01", .calculateAndLog 63875000000000000 swap]).db.commissionLogs,
        ∃ y ∈ (run step january5
          [.generate 5 "2025-01", .calculateAndLog 63875000000000000 swap]).db.commissionLogs,
        (x.transactionId = some 9 ∧ x.status ≠ .reversed) ∧
          (y.transactionId = some 9 ∧ y.status ≠ .reversed) ∧ x.id ≠ y.id := by
      decide +kernel
    obtain ⟨x, hx, y, hy, hxt, hyt, hne⟩ := hlogs
    exact hne (congrArg CommissionLog.id (hone 9 x hx y hy hxt hyt))
  · rintro ⟨-, honce⟩
    have hlogs : ∃ x ∈ (run step january5 [.generate 5 "2025-01", .processPayout 1,
          .pay (.batch 0 "2025-01" (fun _ => executed) none)]).db.commissionLogs,
        payments (run step january5 [.generate 5 "2025-01", .processPayout 1,
          .pay (.batch 0 "2025-01" (fun _ => executed) none)]) x = 2 := by
      decide +kernel
    obtain ⟨x, hx, htwo⟩ := hlogs
    have hle := honce x hx
    omega

end WezuBackend.Settlements.Commissions
