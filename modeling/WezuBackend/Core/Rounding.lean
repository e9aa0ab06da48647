import WezuBackend.Core.Amounts
import WezuBackend.Lib.Rounding
import Mathlib.Data.Rat.Floor

/-!
# Half to even

What `roundHalfEven` does with a fraction, said without its numerator and its denominator.
-/

namespace WezuBackend.Core.Rounding

open Core.Amounts Lib.Rounding

theorem roundHalfEven_eq_iff {n : ℤ} {d : ℕ} (hd : 0 < d) (k : ℤ) :
    roundHalfEven n d = k ↔ 2 * |n - k * d| < d ∨ 2 * |n - k * d| = d ∧ k % 2 = 0 := by
  have hdiv := Int.mul_ediv_add_emod n d
  have hnonneg : 0 ≤ n % d := Int.emod_nonneg n (by omega)
  have hlt : n % d < d := Int.emod_lt_of_pos n (by omega)
  unfold roundHalfEven
  dsimp only
  generalize hq : n / (d : ℤ) = q at hdiv ⊢
  generalize hr : n % (d : ℤ) = r at hdiv hnonneg hlt ⊢
  obtain ⟨j, rfl⟩ : ∃ j, k = q + j := ⟨k - q, by ring⟩
  have hdiff : n - (q + j) * d = r - j * d := by rw [← hdiv]; ring
  rw [hdiff]
  -- only the two integers around `n / d` are that near
  rcases lt_trichotomy j 0 with hj | rfl | hj
  · have hfar : (d : ℤ) ≤ r - j * d := by nlinarith
    rw [abs_of_nonneg (by omega)]
    split_ifs <;> omega
  · rw [zero_mul, sub_zero, abs_of_nonneg hnonneg, add_zero]
    split_ifs <;> omega
  · rcases eq_or_lt_of_le (show 1 ≤ j by omega) with rfl | hj
    · rw [one_mul, abs_of_nonpos (by omega)]
      split_ifs <;> omega
    · have hfar : r - j * d < -(d : ℤ) := by nlinarith
      rw [abs_of_neg (by omega)]
      split_ifs <;> omega

theorem num_sub_mul (x : ℚ) (k : ℤ) : ((x.num - k * x.den : ℤ) : ℚ) = (x - k) * x.den := by
  push_cast
  rw [sub_mul, Rat.mul_den_eq_num]

/-- **What a fraction is rounded to.** -/
theorem halfEven_eq_iff (x : ℚ) (k : ℤ) :
    roundHalfEven x.num x.den = k ↔ |x - k| < 1 / 2 ∨ |x - k| = 1 / 2 ∧ k % 2 = 0 := by
  have hden : (0 : ℚ) < x.den := by exact_mod_cast x.den_pos
  have habs : ((2 * |x.num - k * x.den| : ℤ) : ℚ) = 2 * |x - k| * x.den := by
    have hsub := num_sub_mul x k
    rw [Int.cast_mul, Int.cast_abs, hsub, abs_mul, abs_of_pos hden]
    push_cast
    ring
  have hlt : 2 * |x.num - k * x.den| < x.den ↔ |x - k| < 1 / 2 := by
    rw [← Int.cast_lt (R := ℚ), habs, Int.cast_natCast]
    constructor <;> intro h <;> nlinarith
  have heq : 2 * |x.num - k * x.den| = x.den ↔ |x - k| = 1 / 2 := by
    rw [← Int.cast_inj (α := ℚ), habs, Int.cast_natCast]
    constructor
    · intro h
      have h' : (2 * |x - k| - 1) * (x.den : ℚ) = 0 := by linarith
      rcases mul_eq_zero.mp h' with h' | h'
      · linarith
      · exact absurd h' hden.ne'
    · intro h
      rw [h]
      ring
  rw [roundHalfEven_eq_iff x.den_pos, hlt, heq]

theorem toNearest_halfEven : ToNearest fun x : ℚ => roundHalfEven x.num x.den := by
  intro x
  rcases (halfEven_eq_iff x _).mp rfl with h | ⟨h, -⟩
  · exact h.le
  · exact h.le

theorem halfEven_le_iff (x : ℚ) (m : ℤ) :
    roundHalfEven x.num x.den ≤ m ↔ x < m + 1 / 2 ∨ x = m + 1 / 2 ∧ m % 2 = 0 := by
  obtain ⟨r, hr⟩ : ∃ r, roundHalfEven x.num x.den = r := ⟨_, rfl⟩
  have hnear := (halfEven_eq_iff x r).mp hr
  rw [hr]
  constructor
  · intro hle
    have hle' : (r : ℚ) ≤ m := by exact_mod_cast hle
    rcases hnear with hlt | ⟨htie, heven⟩
    · exact .inl (by linarith [(abs_lt.mp hlt).2])
    · have hbound : x ≤ r + 1 / 2 := by linarith [(abs_le.mp htie.le).2]
      rcases eq_or_lt_of_le hle with rfl | hlt
      · rcases eq_or_lt_of_le hbound with heq | hlt
        · exact .inr ⟨heq, heven⟩
        · exact .inl hlt
      · have hstep : (r : ℚ) + 1 ≤ m := by exact_mod_cast hlt
        exact .inl (by linarith)
  · intro h
    by_contra hgt
    have hstep : (m : ℚ) + 1 ≤ r := by exact_mod_cast not_le.mp hgt
    rcases h with hlt | ⟨heq, heven⟩
    · rcases hnear with hr | ⟨hr, -⟩
      · linarith [(abs_lt.mp hr).1]
      · linarith [(abs_le.mp hr.le).1]
    · have hm : roundHalfEven x.num x.den = m := by
        refine (halfEven_eq_iff x m).mpr (.inr ⟨?_, heven⟩)
        rw [heq, add_sub_cancel_left]
        norm_num
      omega

end WezuBackend.Core.Rounding
