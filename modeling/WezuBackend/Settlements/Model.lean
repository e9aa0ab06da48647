import WezuBackend.Core.Text
import Mathlib.Algebra.Order.Ring.Nat

/-!
# Commissions and their settlement

The tables of `app/models/commission.py`, `settlement.py` and `chargeback.py` that
`SettlementService` reads and writes, and its calendar.  A time is a number of microseconds since
the first of January of year 1, so that the start of a month is a computation as in `datetime(year,
month, 1)`; amounts are in hundredths.
-/

namespace WezuBackend.Settlements.Model

open Lib.Tables

/-! ## Rows -/

inductive CommissionStatus where
  | pending | processing | paid | reversed
  deriving DecidableEq, Repr

structure CommissionLog where
  id : ℕ
  transactionId : Option ℕ := none
  dealerId : Option ℕ
  amount : ℤ
  status : CommissionStatus := .pending
  settlementId : Option ℕ := none
  createdAt : ℕ
  deriving DecidableEq, Repr

instance : Row CommissionLog ℕ := ⟨CommissionLog.id⟩

inductive SettlementStatus where
  | pending | generated | approved | processing | paid | failed
  deriving DecidableEq, Repr

structure Settlement where
  id : ℕ
  dealerId : Option ℕ
  settlementMonth : String
  startDate : ℕ
  endDate : ℕ
  dueDate : Option ℕ := none
  totalRevenue : ℤ := 0
  totalCommission : ℤ := 0
  chargebackAmount : ℤ := 0
  taxAmount : ℤ := 0
  netPayable : ℤ := 0
  status : SettlementStatus := .pending
  failureReason : Option String := none
  transactionReference : Option String := none
  paymentProofUrl : Option String := none
  paidAt : Option ℕ := none
  deriving DecidableEq, Repr

instance : Row Settlement ℕ := ⟨Settlement.id⟩

inductive ChargebackStatus where
  | pending | deducted | reversed
  deriving DecidableEq, Repr

structure Chargeback where
  id : ℕ
  dealerId : ℕ
  amount : ℤ
  status : ChargebackStatus := .pending
  settlementId : Option ℕ := none
  createdAt : ℕ
  deriving DecidableEq, Repr

instance : Row Chargeback ℕ := ⟨Chargeback.id⟩

structure DealerProfile where
  id : ℕ
  userId : ℕ
  deriving DecidableEq, Repr

instance : Row DealerProfile ℕ := ⟨DealerProfile.id⟩

structure Station where
  id : ℕ
  dealerId : Option ℕ
  deriving DecidableEq, Repr

instance : Row Station ℕ := ⟨Station.id⟩

structure SwapSession where
  id : ℕ
  stationId : ℕ
  swapAmount : ℤ := 0
  status : String := "initiated"
  paymentStatus : String := "pending"
  completedAt : Option ℕ := none
  deriving DecidableEq, Repr

instance : Row SwapSession ℕ := ⟨SwapSession.id⟩

structure Db where
  commissionLogs : Table CommissionLog := .empty
  settlements : Table Settlement := .empty
  chargebacks : Table Chargeback := .empty
  dealerProfiles : Table DealerProfile := .empty
  stations : Table Station := .empty
  swapSessions : Table SwapSession := .empty
  /-- the settlements that the gateway has paid out so far, which no rollback undoes -/
  payouts : List ℕ := []

/-! ## The calendar -/

def second : ℕ := 1000000

def day : ℕ := 86400 * second

def IsLeap (year : ℕ) : Prop := year % 4 = 0 ∧ (year % 100 ≠ 0 ∨ year % 400 = 0)

instance (year : ℕ) : Decidable (IsLeap year) := by unfold IsLeap; infer_instance

def daysInMonth (year month : ℕ) : ℕ :=
  if month = 2 then if IsLeap year then 29 else 28
  else if month ∈ [4, 6, 9, 11] then 30 else 31

def daysBeforeYear (year : ℕ) : ℕ :=
  (year - 1) * 365 + (year - 1) / 4 - (year - 1) / 100 + (year - 1) / 400

def daysBeforeMonth (year month : ℕ) : ℕ :=
  ((List.range' 1 (month - 1)).map (daysInMonth year)).sum

/-- A month that `datetime` knows. -/
structure Month where
  year : ℕ
  month : ℕ
  hyear : 1 ≤ year
  hmonth : 1 ≤ month ∧ month ≤ 12
  deriving DecidableEq, Repr

namespace Month

def days (m : Month) : ℕ := daysBeforeYear m.year + daysBeforeMonth m.year m.month

/-- `datetime(year, month, 1)`. -/
def start (m : Month) : ℕ := m.days * day

def next (m : Month) : Month :=
  if h : m.month = 12 then ⟨m.year + 1, 1, by omega, by omega⟩
  else ⟨m.year, m.month + 1, m.hyear, by have := m.hmonth; omega⟩

def Contains (m : Month) (time : ℕ) : Prop := m.start ≤ time ∧ time < m.next.start

instance (m : Month) (time : ℕ) : Decidable (m.Contains time) := by
  unfold Contains
  infer_instance

/-! ### Months follow each other -/

/-- The number of months before. -/
def index (m : Month) : ℕ := 12 * m.year + m.month

theorem index_next (m : Month) : m.next.index = m.index + 1 := by
  unfold next index
  split_ifs with h
  · dsimp only
    omega
  · dsimp only
    omega

variable {m m' : Month}

theorem eq_of_index (h : m.index = m'.index) : m = m' := by
  obtain ⟨year, month, hyear, hmonth⟩ := m
  obtain ⟨year', month', hyear', hmonth'⟩ := m'
  unfold index at h
  dsimp only at h
  obtain ⟨rfl, rfl⟩ : year = year' ∧ month = month' := by omega
  rfl

theorem daysInMonth_pos (year month : ℕ) : 28 ≤ daysInMonth year month := by
  unfold daysInMonth
  split_ifs <;> omega

theorem daysBeforeMonth_succ (year : ℕ) {month : ℕ} (h : 1 ≤ month) :
    daysBeforeMonth year (month + 1) = daysBeforeMonth year month + daysInMonth year month := by
  obtain ⟨n, rfl⟩ : ∃ n, month = n + 1 := ⟨month - 1, by omega⟩
  unfold daysBeforeMonth
  rw [Nat.add_sub_cancel, Nat.add_sub_cancel, List.range'_concat, List.map_append, List.sum_append]
  have hlast : 1 + 1 * n = n + 1 := by omega
  rw [hlast, List.map_singleton, List.sum_singleton]

theorem daysBeforeMonth_year (year : ℕ) :
    daysBeforeMonth year 12 + daysInMonth year 12 = if IsLeap year then 366 else 365 := by
  have hsum : daysBeforeMonth year 12 + daysInMonth year 12 = 337 + daysInMonth year 2 := by
    unfold daysBeforeMonth
    simp [List.range', daysInMonth]
    omega
  rw [hsum]
  unfold daysInMonth
  split_ifs <;> omega

theorem daysBeforeYear_succ {year : ℕ} (h : 1 ≤ year) :
    daysBeforeYear (year + 1) = daysBeforeYear year + if IsLeap year then 366 else 365 := by
  obtain ⟨n, rfl⟩ : ∃ n, year = n + 1 := ⟨year - 1, by omega⟩
  have hfour : (n + 1) / 4 = n / 4 + if (n + 1) % 4 = 0 then 1 else 0 := by
    split_ifs <;> omega
  have hcentury : (n + 1) / 100 = n / 100 + if (n + 1) % 100 = 0 then 1 else 0 := by
    split_ifs <;> omega
  have hfourth : (n + 1) / 400 = n / 400 + if (n + 1) % 400 = 0 then 1 else 0 := by
    split_ifs <;> omega
  have hle : n / 100 ≤ n / 4 := by omega
  unfold daysBeforeYear
  rw [Nat.add_sub_cancel, Nat.add_sub_cancel, hfour, hcentury, hfourth]
  generalize n / 4 = a at hle ⊢
  generalize n / 100 = b at hle ⊢
  generalize n / 400 = c
  have hfour_of : (n + 1) % 100 = 0 → (n + 1) % 4 = 0 := by omega
  have hcentury_of : (n + 1) % 400 = 0 → (n + 1) % 100 = 0 := by omega
  by_cases hleap : IsLeap (n + 1)
  · rw [if_pos hleap, if_pos hleap.1]
    rcases hleap.2 with hy | hz
    · rw [if_neg hy, if_neg fun hz => hy (hcentury_of hz)]
      omega
    · rw [if_pos (hcentury_of hz), if_pos hz]
      omega
  · rw [if_neg hleap]
    by_cases hx : (n + 1) % 4 = 0
    · have hz : (n + 1) % 400 ≠ 0 := fun hz => hleap ⟨hx, .inr hz⟩
      have hy : (n + 1) % 100 = 0 := by_contra fun hy => hleap ⟨hx, .inl hy⟩
      rw [if_pos hx, if_pos hy, if_neg hz]
      omega
    · have hy : (n + 1) % 100 ≠ 0 := fun hy => hx (hfour_of hy)
      rw [if_neg hx, if_neg hy, if_neg fun hz => hy (hcentury_of hz)]
      omega

theorem days_next (m : Month) : m.next.days = m.days + daysInMonth m.year m.month := by
  have hmonth := m.hmonth
  unfold next
  split_ifs with h
  · have hyear := daysBeforeYear_succ m.hyear
    have hmonths := daysBeforeMonth_year m.year
    have hfirst : daysBeforeMonth (m.year + 1) 1 = 0 := rfl
    unfold days
    dsimp only
    rw [hfirst, hyear, ← hmonths, h]
    omega
  · unfold days
    dsimp only
    rw [daysBeforeMonth_succ m.year hmonth.1]
    omega

theorem start_next (m : Month) :
    m.next.start = m.start + daysInMonth m.year m.month * day := by
  unfold start
  rw [days_next, Nat.add_mul]

theorem start_lt_next (m : Month) : m.start + second < m.next.start := by
  have hdays := daysInMonth_pos m.year m.month
  have hday : second < 28 * day := by decide
  have hmul : 28 * day ≤ daysInMonth m.year m.month * day := Nat.mul_le_mul_right day hdays
  rw [start_next]
  omega

theorem next_start_le (h : m.index < m'.index) : m.next.start ≤ m'.start := by
  obtain ⟨k, hk⟩ : ∃ k, m'.index = m.index + 1 + k := ⟨m'.index - m.index - 1, by omega⟩
  induction k generalizing m with
  | zero =>
    have hnext : m.next = m' := eq_of_index (by rw [index_next]; omega)
    rw [hnext]
  | succ k ih =>
    have hstep : m.next.next.start ≤ m'.start :=
      ih (by rw [index_next]; omega) (by rw [index_next]; omega)
    have hlt := start_lt_next m.next
    omega

theorem eq_of_contains {time : ℕ} (h : m.Contains time) (h' : m'.Contains time) :
    m = m' := by
  obtain ⟨hstart, hend⟩ := h
  obtain ⟨hstart', hend'⟩ := h'
  refine eq_of_index ?_
  rcases lt_trichotomy m.index m'.index with hlt | heq | hlt
  · have := next_start_le hlt
    omega
  · exact heq
  · have := next_start_le hlt
    omega

end Month

end WezuBackend.Settlements.Model
