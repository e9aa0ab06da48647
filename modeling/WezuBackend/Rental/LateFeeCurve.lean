import WezuBackend.Core.Rounding
import WezuBackend.Rental.LateFees
import Mathlib.Tactic.Positivity

/-!
# The late fee as a function of the return

`calculate_late_fee` of one rental, over all times of its return.  Up to the end of the grace period
nothing is due; from there on the exact fee grows in proportion to the time (`exactFee`), and what
is charged is the exact fee rounded to hundredths.  Both branches of the code, the one for rentals
that are still out and the one for returned ones, charge the same (`still_out`).
-/

namespace WezuBackend.Rental.LateFeeCurve

open Core.Amounts Core.Rounding Lib.Rounding Fleet.Model Rental.Service Rental.LateFees

def returned (rental : Rental) (time : ℕ) : Rental := { rental with endTime := some time }

def feeAt (rental : Rental) (time : ℕ) : ℤ := (calculateLateFee time (returned rental time)).lateFee

def graceEnd (rental : Rental) : ℕ := rental.expectedEndTime + 2 * (60 * minute)

/-- The late fee before it is rounded, in rupees. -/
def exactFee (rental : Rental) (time : ℕ) : ℚ :=
  inHours (time - graceEnd rental) *
    (rental.totalAmount / inHours (rental.expectedEndTime - rental.startTime)) * lateFeeMultiplier

/-! ## Hours -/

theorem inHours_sub (a b : ℤ) : inHours (a - b) = inHours a - inHours b := by
  unfold inHours
  push_cast
  ring

theorem inHours_mono : Monotone inHours := by
  intro a b hab
  unfold inHours
  have hcast : (a : ℚ) ≤ b := by exact_mod_cast hab
  gcongr

theorem inHours_pos {a : ℤ} (h : 0 < a) : 0 < inHours a := by
  have hcast : (0 : ℚ) < a := by exact_mod_cast h
  unfold inHours minute
  positivity

theorem inHours_grace : inHours (2 * (60 * minute) : ℕ) = rentalGracePeriodHours := by
  unfold inHours rentalGracePeriodHours minute
  norm_num

theorem hours_after_grace (rental : Rental) (time : ℕ) :
    inHours (time - rental.expectedEndTime) - rentalGracePeriodHours =
      inHours (time - graceEnd rental) := by
  unfold graceEnd
  rw [← inHours_grace, ← inHours_sub]
  push_cast
  congr 1
  ring

theorem in_grace_iff (rental : Rental) (time : ℕ) :
    inHours (time - rental.expectedEndTime) ≤ rentalGracePeriodHours ↔ time ≤ graceEnd rental := by
  rw [← sub_nonpos, hours_after_grace]
  constructor
  · intro h
    by_contra hlate
    have hpos := inHours_pos (a := (time : ℤ) - graceEnd rental) (by omega)
    linarith
  · intro h
    have hmono := inHours_mono (show (time : ℤ) - graceEnd rental ≤ 0 by omega)
    have hzero : inHours 0 = 0 := by
      unfold inHours
      norm_num
    rwa [hzero] at hmono

/-! ## Rounding -/

theorem toNearest_round2 : ToNearest fun x : ℚ => round2 (x / 100) := by
  intro x
  have hx : 100 * (x / 100) = x := by ring
  have hround : round2 (x / 100) = roundHalfEven x.num x.den := by
    unfold round2
    rw [hx]
  dsimp only
  rw [hround]
  exact toNearest_halfEven x

theorem round2_mono : Monotone round2 := by
  intro x y hxy
  have h := toNearest_round2.mono (show 100 * x ≤ 100 * y by linarith)
  rwa [mul_div_cancel_left₀ x (by norm_num), mul_div_cancel_left₀ y (by norm_num)] at h

theorem round2_eq_zero_iff {x : ℚ} (h : 0 ≤ x) : round2 x = 0 ↔ x ≤ 1 / 200 := by
  unfold round2
  rw [halfEven_eq_iff, Int.cast_zero, sub_zero, abs_of_nonneg (by linarith)]
  constructor
  · rintro (hlt | ⟨heq, -⟩)
    · linarith
    · linarith
  · intro hle
    rcases lt_or_eq_of_le hle with hlt | rfl
    · exact .inl (by linarith)
    · exact .inr ⟨by norm_num, rfl⟩

theorem round2_zero : round2 0 = 0 := (round2_eq_zero_iff le_rfl).mpr (by norm_num)

/-! ## The two branches -/

theorem still_out {rental : Rental} (h : rental.endTime = none) (now : ℕ) :
    calculateLateFee now rental = calculateLateFee now (returned rental now) := by
  unfold calculateLateFee returned
  rw [h]
  rfl

section

variable {rental : Rental}

variable {time : ℕ}

theorem feeAt_of_le (h : time ≤ graceEnd rental) : feeAt rental time = 0 := by
  unfold feeAt calculateLateFee returned
  dsimp only [Option.getD_some]
  by_cases hend : time ≤ rental.expectedEndTime
  · rw [if_pos hend]
  · rw [if_neg hend, if_pos ((in_grace_iff rental time).mpr h)]

theorem feeAt_of_lt (hstart : rental.startTime < rental.expectedEndTime)
    (h : graceEnd rental < time) : feeAt rental time = round2 (exactFee rental time) := by
  have hend : ¬ time ≤ rental.expectedEndTime := by
    unfold graceEnd at h
    omega
  have hgrace : ¬ inHours (time - rental.expectedEndTime) ≤ rentalGracePeriodHours := by
    rw [in_grace_iff]
    exact not_le.mpr h
  have hduration : inHours (rental.expectedEndTime - rental.startTime) ≠ 0 :=
    (inHours_pos (by omega)).ne'
  unfold feeAt calculateLateFee returned exactFee
  dsimp only [Option.getD_some]
  rw [if_neg hend, if_neg hgrace, if_neg hduration, hours_after_grace]

theorem exactFee_mono (hstart : rental.startTime < rental.expectedEndTime)
    (htotal : 0 ≤ rental.totalAmount) : Monotone (exactFee rental) := by
  intro a b hab
  have hduration : 0 < inHours (rental.expectedEndTime - rental.startTime) :=
    inHours_pos (by omega)
  have hhours : inHours (a - graceEnd rental) ≤ inHours (b - graceEnd rental) :=
    inHours_mono (by omega)
  have hrate : 0 ≤ rental.totalAmount / inHours (rental.expectedEndTime - rental.startTime) :=
    div_nonneg htotal hduration.le
  have hmultiplier : (0 : ℚ) ≤ lateFeeMultiplier := by
    unfold lateFeeMultiplier
    norm_num
  unfold exactFee
  gcongr

theorem exactFee_graceEnd (rental : Rental) : exactFee rental (graceEnd rental) = 0 := by
  unfold exactFee inHours
  rw [sub_self]
  norm_num

theorem exactFee_nonneg (hstart : rental.startTime < rental.expectedEndTime)
    (htotal : 0 ≤ rental.totalAmount) (h : graceEnd rental ≤ time) :
    0 ≤ exactFee rental time := by
  rw [← exactFee_graceEnd rental]
  exact exactFee_mono hstart htotal h

theorem feeAt_eq (hstart : rental.startTime < rental.expectedEndTime) (time : ℕ) :
    feeAt rental time = round2 (exactFee rental (max time (graceEnd rental))) := by
  rcases Nat.lt_or_ge (graceEnd rental) time with h | h
  · rw [max_eq_left h.le, feeAt_of_lt hstart h]
  · rw [max_eq_right h, exactFee_graceEnd, round2_zero, feeAt_of_le h]

theorem feeAt_mono (hstart : rental.startTime < rental.expectedEndTime)
    (htotal : 0 ≤ rental.totalAmount) : Monotone (feeAt rental) := by
  intro a b hab
  rw [feeAt_eq hstart, feeAt_eq hstart]
  exact round2_mono (exactFee_mono hstart htotal (max_le_max_right _ hab))

theorem feeAt_eq_zero_iff (hstart : rental.startTime < rental.expectedEndTime)
    (htotal : 0 ≤ rental.totalAmount) (time : ℕ) : feeAt rental time = 0 ↔
      time ≤ graceEnd rental ∨ rental.totalAmount = 0 ∨ exactFee rental time ≤ 1 / 200 := by
  rcases Nat.lt_or_ge (graceEnd rental) time with h | h
  · rw [feeAt_of_lt hstart h, round2_eq_zero_iff (exactFee_nonneg hstart htotal h.le)]
    constructor
    · exact fun hle => .inr (.inr hle)
    · rintro (hle | hzero | hle)
      · omega
      · unfold exactFee
        rw [hzero]
        norm_num
      · exact hle
  · exact iff_of_true (feeAt_of_le h) (.inl h)

end

/-! ## The function -/

/-- **The late fee function**: never negative; zero exactly up to the end of the grace period, for a
rental that costs nothing, and where no more than half a hundredth is due; the later the return, the
higher; and for a rental that is still out, the fee of a return now. -/
theorem late_fee_function (rental : Rental) (hstart : rental.startTime < rental.expectedEndTime)
    (htotal : 0 ≤ rental.totalAmount) :
    (∀ time, 0 ≤ feeAt rental time) ∧
      (∀ time, feeAt rental time = 0 ↔
        time ≤ graceEnd rental ∨ rental.totalAmount = 0 ∨ exactFee rental time ≤ 1 / 200) ∧
      Monotone (feeAt rental) ∧
      (rental.endTime = none →
        ∀ now, (calculateLateFee now rental).lateFee = feeAt rental now) := by
  refine ⟨fun time => ?_, feeAt_eq_zero_iff hstart htotal, feeAt_mono hstart htotal, ?_⟩
  · rw [← feeAt_of_le (Nat.zero_le (graceEnd rental))]
    exact feeAt_mono hstart htotal (Nat.zero_le time)
  · intro hout now
    rw [still_out hout]
    rfl

def dayRental : Rental :=
  { id := 1, userId := 1, batteryId := 7, startStationId := 3, startTime := 0
    expectedEndTime := day, totalAmount := 24, securityDeposit := 0, status := .active }

/-- Ten hours late, it is charged for eight of them. -/
theorem late_fee_function_sample :
    feeAt dayRental (day + 10 * (60 * minute)) = 1200 ∧ Monotone (feeAt dayRental) :=
  ⟨by decide +kernel, (late_fee_function dayRental (by decide) (by decide)).2.2.1⟩

end WezuBackend.Rental.LateFeeCurve
